import Vwifi.ListReply

/-!
# LIST over a connection that breaks off

`GetCInfoWifi` returns 1 for every error, `AskList` looks for `SOCKET_ERROR`, and a
part of a field counts as the field. `AskList` is compared with a reader that stops at
the first field that does not arrive whole and at the first record that is not valid.
-/

namespace Vwifi

set_option autoImplicit false

open LittleEndian Segmented

/-! ## A reader that stops -/

namespace Strict

def takeField (n : Nat) (inbox : List (List UInt8)) : Option (List UInt8 × List (List UInt8)) :=
  if (deliver n inbox).1.length = n then some (deliver n inbox) else none

/-- A name of an announced size that fits, with its terminator. -/
def takeName (size : Int) (inbox : List (List UInt8)) : Option (CString × List (List UInt8)) :=
  if maxSizeName < size then none
  else if 0 < size then
    match takeField (size + 1).toNat inbox with
    | none => none
    | some (bytes, rest) => if 0 ∈ bytes then some (CString.ofBuffer bytes, rest) else none
  else some (CString.empty, inbox)

/-- The record with these fields: no guest has the CID 1 or 2. -/
def record (cid : TCID) (coo : CCoordinate) (name : CString) : Option CInfoWifi :=
  (CInfoWifi.default.setCid cid).map fun w => (w.set coo).setName name

def takeRecord (inbox : List (List UInt8)) : Option (CInfoWifi × List (List UInt8)) :=
  match takeField 4 inbox with
  | none => none
  | some (cid, inbox) =>
    match takeField 12 inbox with
    | none => none
    | some (coo, inbox) =>
      match takeField 4 inbox with
      | none => none
      | some (sizeName, inbox) =>
        match takeName (Var.toInt ⟨sizeName, 4⟩) inbox with
        | none => none
        | some (name, inbox) =>
          (record (UInt32.ofNat (value cid)) (CCoordinate.ofBytes coo) name).map (·, inbox)

/-- The records in front of the first one that is missing or invalid, and what is left
of the connection when there is none. -/
def takeRecords : Nat → List (List UInt8) → List CInfoWifi × Option (List (List UInt8))
  | 0, inbox => ([], some inbox)
  | n + 1, inbox =>
    match takeRecord inbox with
    | none => ([], none)
    | some (w, rest) => (w :: (takeRecords n rest).1, (takeRecords n rest).2)

def takeRegistry (inbox : List (List UInt8)) :
    List CInfoWifi × Option (List (List UInt8)) :=
  match takeField 4 inbox with
  | none => ([], none)
  | some (number, rest) => takeRecords (value number) rest

/-- The spies, the clients, and whether all of them are there. -/
def takeList (inbox : List (List UInt8)) : List CInfoWifi × List CInfoWifi × Bool :=
  match takeRegistry inbox with
  | (spies, none) => (spies, [], false)
  | (spies, some rest) => (spies, (takeRegistry rest).1, (takeRegistry rest).2.isSome)

theorem takeField_some {n : Nat} {inbox rest : List (List UInt8)} {bytes : List UInt8}
    (h : takeField n inbox = some (bytes, rest)) :
    deliver n inbox = (bytes, rest) ∧ bytes.length = n := by
  unfold takeField at h
  split at h
  · rename_i hlength
    have heq := Option.some.inj h
    rw [heq] at hlength
    exact ⟨heq, hlength⟩
  · cases h

/-- Where a record is missing or invalid, not all that were announced are there. -/
theorem takeRecords_short {n : Nat} {inbox : List (List UInt8)}
    (h : (takeRecords n inbox).2 = none) : (takeRecords n inbox).1.length < n := by
  induction n generalizing inbox with
  | zero => cases h
  | succ n ih =>
    rw [takeRecords] at h ⊢
    cases hrecord : takeRecord inbox with
    | none => exact Nat.succ_pos n
    | some r =>
      rw [hrecord] at h
      exact Nat.succ_lt_succ (ih h)

end Strict

/-! ## Where the two agree -/

namespace Ask

open Strict

variable {a : Ask} {frame : AskFrame} {stack : AskStack}

theorem read_field {n : Nat} {bytes : List UInt8} {rest : List (List UInt8)} (v : Var)
    (hpos : 0 < n) (h : takeField n a.inbox = some (bytes, rest)) :
    ∃ a', a.read v n = (some ⟨bytes ++ v.bytes.drop n, n⟩, a') ∧ a'.inbox = rest ∧
      a'.number = a.number := by
  obtain ⟨hdeliver, hlength⟩ := takeField_some h
  have hne : bytes ≠ [] := List.ne_nil_of_length_pos (by omega)
  refine ⟨{ a with inbox := rest, reads := a.reads ++ [(n, n)] }, ?_, rfl, rfl⟩
  rw [read, hdeliver]
  simp only [if_neg hne, hlength]

theorem store_field {cid : TCID} {coo : CCoordinate} {name : CString} {w : CInfoWifi}
    {strName : List UInt8} (hrecord : record cid coo name = some w)
    (hname : CString.ofBuffer strName = name) (hlen : name.bytes.length < strName.length) :
    a.store cid coo strName = some (0, { a with info := w }) := by
  obtain ⟨w₀, hset, rfl⟩ := Option.map_eq_some_iff.mp hrecord
  unfold CInfoWifi.setCid at hset
  split at hset
  · rename_i hcid
    cases hset
    have hset' : a.info.setCid cid = some { a.info with cid := cid, cidOk := hcid } := dif_pos hcid
    simp only [store, hset', hname, if_neg (Nat.ne_of_lt hlen)]
    by_cases hfits : name.bytes.length ≤ maxSizeName
    · simp only [CInfoWifi.setName, dif_pos hfits, CInfoWifi.set]
    · simp only [CInfoWifi.setName, dif_neg hfits, CInfoWifi.set]
  · cases hset

theorem readName_take {cid : TCID} {coo : CCoordinate} {size : Int} {name : CString}
    {w : CInfoWifi} {rest : List (List UInt8)} (h : takeName size a.inbox = some (name, rest))
    (hrecord : record cid coo name = some w) :
    ∃ a', a.readName frame cid coo size = some (0, a') ∧ a'.inbox = rest ∧ a'.info = w ∧
      a'.number = a.number := by
  unfold takeName at h
  unfold readName
  split at h
  · cases h
  · rename_i hlarge
    rw [if_neg hlarge]
    split at h
    · rename_i hpositive
      rw [if_pos hpositive]
      split at h
      · cases h
      · rename_i bytes rest' hfield
        split at h
        · rename_i hnul
          cases h
          obtain ⟨a', heq, hinbox, hnumber⟩ := read_field
            (uninitialised frame .strName (maxSizeName + 1)) (by omega) hfield
          obtain ⟨hsame, hlength⟩ := CString.ofBuffer_append hnul
            ((uninitialised frame .strName (maxSizeName + 1)).bytes.drop (size + 1).toNat)
          rw [heq]
          dsimp only
          rw [store_field hrecord hsame (by rw [List.length_append]; omega)]
          exact ⟨_, rfl, hinbox, rfl, hnumber⟩
        · cases h
    · rename_i hnone
      cases h
      have hempty : CString.ofBuffer
          (0 :: (uninitialised frame .strName (maxSizeName + 1)).bytes.tail) = CString.empty :=
        CString.ext_bytes rfl
      rw [if_neg hnone, store_field hrecord hempty (Nat.succ_pos _)]
      exact ⟨_, rfl, rfl, rfl, rfl⟩

/-- A record that arrives whole and is valid is what `GetCInfoWifi` reads. -/
theorem getCInfoWifi_take {w : CInfoWifi} {rest : List (List UInt8)}
    (h : takeRecord a.inbox = some (w, rest)) :
    ∃ a', a.getCInfoWifi frame = some (0, a') ∧ a'.inbox = rest ∧ a'.info = w ∧
      a'.number = a.number := by
  unfold takeRecord at h
  split at h
  · cases h
  · rename_i cid inbox₁ h₁
    split at h
    · cases h
    · rename_i coo inbox₂ h₂
      split at h
      · cases h
      · rename_i size inbox₃ h₃
        split at h
        · cases h
        · rename_i name inbox₄ h₄
          obtain ⟨w', hrecord, heq⟩ := Option.map_eq_some_iff.mp h
          cases heq
          obtain ⟨a₁, heq₁, rfl, hnumber₁⟩ := read_field (uninitialised frame .cid 4)
            (by decide) h₁
          obtain ⟨a₂, heq₂, rfl, hnumber₂⟩ := read_field ⟨CCoordinate.zero.bytes, 0⟩
            (by decide) h₂
          obtain ⟨a₃, heq₃, rfl, hnumber₃⟩ := read_field (uninitialised frame .sizeName 4)
            (by decide) h₃
          obtain ⟨a₄, heq₄, hinbox, hinfo, hnumber₄⟩ := @readName_take a₃ frame _ _ _ _ _ _ h₄
            hrecord
          refine ⟨a₄, ?_, hinbox, hinfo, ?_⟩
          · rw [drop_uninitialised, List.append_nil] at heq₁ heq₃
            have hcoo : coo ++ CCoordinate.zero.bytes.drop 12 = coo := List.append_nil coo
            rw [hcoo] at heq₂
            simp only [getCInfoWifi, heq₁, heq₂, heq₃]
            exact heq₄
          · rw [hnumber₄, hnumber₃, hnumber₂, hnumber₁]

theorem askInfos_take {n : Nat} {ws : List CInfoWifi} {rest : List (List UInt8)}
    (h : takeRecords n a.inbox = (ws, some rest)) :
    ∃ a', a.askInfos stack n = some (true, ws, a') ∧ a'.inbox = rest ∧ a'.number = a.number := by
  induction n generalizing a ws with
  | zero =>
    cases h
    exact ⟨a, rfl, rfl, rfl⟩
  | succ n ih =>
    rw [takeRecords] at h
    cases hrecord : takeRecord a.inbox with
    | none =>
      rw [hrecord] at h
      cases h
    | some r =>
      obtain ⟨w, inbox⟩ := r
      rw [hrecord] at h
      obtain ⟨rfl, hrest⟩ := Prod.mk.inj h
      obtain ⟨a₁, heq₁, rfl, rfl, hnumber₁⟩ :=
        @getCInfoWifi_take a (stack a.reads.length) w inbox hrecord
      obtain ⟨a₂, heq₂, hinbox, hnumber₂⟩ := ih (Prod.ext rfl hrest)
      have herr : ¬ (0 : Int) = socketError := by decide
      refine ⟨a₂, ?_, hinbox, hnumber₂.trans hnumber₁⟩
      rw [askInfos, heq₁]
      simp only [if_neg herr, heq₂, Option.map_some]

/-- Nothing arrives any more. -/
def Silent (inbox : List (List UInt8)) : Prop := (deliver 4 inbox).1 = []

/-- A part of a number arrives, and what the variable held makes it zero. -/
def ZeroByChance (number : Var) (inbox : List (List UInt8)) : Prop :=
  (deliver 4 inbox).1 ≠ [] ∧ (deliver 4 inbox).1.length < 4 ∧
    value ((deliver 4 inbox).1 ++ number.bytes.drop (deliver 4 inbox).1.length) = 0

instance (inbox : List (List UInt8)) : Decidable (Silent inbox) :=
  inferInstanceAs (Decidable (_ = _))

instance (number : Var) (inbox : List (List UInt8)) : Decidable (ZeroByChance number inbox) :=
  inferInstanceAs (Decidable (_ ∧ _))

theorem askRegistry_silent (h : Silent a.inbox) :
    ∃ a', a.askRegistry stack = some (false, [], a') := by
  rw [Silent] at h
  rw [askRegistry, read, if_pos h]
  exact ⟨_, rfl⟩

theorem takeRegistry_silent {inbox : List (List UInt8)} (h : Silent inbox) :
    takeRegistry inbox = ([], none) := by
  rw [Silent] at h
  have hne : ¬ (deliver 4 inbox).1.length = 4 := by
    rw [h]
    decide
  rw [takeRegistry, takeField, if_neg hne]

theorem askRegistry_true {ok : Bool} {shown : List CInfoWifi} {a' : Ask}
    (hsilent : ¬ Silent a.inbox)
    (h : a.askRegistry stack = some (ok, shown, a')) : ok = true := by
  rw [Silent] at hsilent
  rw [askRegistry, read, if_neg hsilent] at h
  exact (askInfos_shown h).1

/-- Where all records of a registry arrive, they are displayed. -/
theorem askRegistry_take {ws : List CInfoWifi} {rest : List (List UInt8)}
    (hnumber : a.number.bytes.length = 4) (h : takeRegistry a.inbox = (ws, some rest)) :
    ∃ a', a.askRegistry stack = some (true, ws, a') ∧ a'.inbox = rest ∧
      a'.number.bytes.length = 4 := by
  rw [takeRegistry] at h
  split at h
  · cases h
  · rename_i number inbox hfield
    obtain ⟨a₁, heq₁, rfl, hnumber₁⟩ := read_field a.number (by decide) hfield
    rw [List.drop_of_length_le (Nat.le_of_eq hnumber), List.append_nil] at heq₁
    obtain ⟨a₂, heq₂, hinbox, hnumber₂⟩ := @askInfos_take
      { a₁ with number := ⟨number, 4⟩ } stack _ _ _ h
    refine ⟨a₂, ?_, hinbox, ?_⟩
    · rw [askRegistry, heq₁]
      exact heq₂
    · rw [hnumber₂]
      exact (takeField_some hfield).2

/-- Where a record or a part of the number is missing, this goes unnoticed: what is
displayed is right only if the number is zero by chance. -/
theorem askRegistry_lost {ws shown : List CInfoWifi} {ok : Bool} {a' : Ask}
    (hnumber : a.number.bytes.length = 4) (hsilent : ¬ Silent a.inbox)
    (hlost : takeRegistry a.inbox = (ws, none))
    (h : a.askRegistry stack = some (ok, shown, a')) :
    ok = true ∧ (shown = ws ↔ ZeroByChance a.number a.inbox) := by
  refine ⟨askRegistry_true hsilent h, ?_⟩
  rw [Silent] at hsilent
  have hle := deliver_length_le 4 a.inbox
  rw [askRegistry, read, if_neg hsilent] at h
  have hshown := (askInfos_shown h).2
  rw [Var.toNat] at hshown
  dsimp only at hshown
  rw [takeRegistry, takeField] at hlost
  split at hlost
  · rename_i hnone
    split at hnone
    · cases hnone
    · rename_i hcut
      cases hlost
      rw [← List.length_eq_zero_iff, hshown, ZeroByChance]
      exact ⟨fun hzero => ⟨hsilent, by omega, hzero⟩, fun hchance => hchance.2.2⟩
  · rename_i number rest hfield
    split at hfield
    · rename_i hwhole
      have hfield' := Option.some.inj hfield
      have hshort := @takeRecords_short (value number) rest (by rw [hlost])
      rw [hlost] at hshort
      rw [hfield', List.drop_of_length_le (by rw [hfield'] at hwhole; omega),
        List.append_nil] at hshown
      constructor
      · intro heq
        rw [heq] at hshown
        exact absurd hshown (Nat.ne_of_lt hshort)
      · rintro ⟨_, hcut, _⟩
        omega
    · cases hfield

theorem askRegistry_chance (h : ZeroByChance a.number a.inbox) :
    ∃ a', a.askRegistry stack = some (true, [], a') ∧ a'.inbox = (deliver 4 a.inbox).2 := by
  obtain ⟨hsome, _, hzero⟩ := h
  rw [askRegistry, read, if_neg hsome]
  dsimp only
  rw [Var.toNat, hzero, askInfos]
  exact ⟨_, rfl, rfl⟩

end Ask

/-! ## When `AskList` reports what it has missed -/

open Strict Ask

/-- `AskList` displays the records in front of the first one that is missing or
invalid, and returns 0 when there is no such record and only then. -/
def AsksSoundly (stack : AskStack) (inbox : List (List UInt8)) : Prop :=
  ∃ asked, askList stack inbox = some asked ∧ asked.spies = (takeList inbox).1 ∧
    asked.clients = (takeList inbox).2.1 ∧ (asked.err = 0 ↔ (takeList inbox).2.2 = true)

/-- Nothing is missing inside a number or a record. -/
def BreaksOffBetween (stack : AskStack) (inbox : List (List UInt8)) : Prop :=
  Silent inbox ∨
    (∃ rest, (takeRegistry inbox).2 = some rest ∧
      (Silent rest ∨ (takeRegistry rest).2.isSome)) ∨
    (ZeroByChance (start stack inbox).number inbox ∧ Silent (deliver 4 inbox).2)

section

variable {stack : AskStack} {inbox rest : List (List UInt8)} {spies : List CInfoWifi} {a₁ : Ask}

/-- Behind the spies, `AskList` returns what the second registry gives. -/
theorem askList_spies_iff {asked : Asked}
    (h : (start stack inbox).askRegistry stack = some (true, spies, a₁)) :
    askList stack inbox = some asked ↔ ∃ ok clients a₂,
      a₁.askRegistry stack = some (ok, clients, a₂) ∧
      asked = ⟨spies, clients, if ok then 0 else 1, a₂⟩ := by
  rw [askList, h]
  dsimp only
  constructor
  · intro hasked
    rcases hask : a₁.askRegistry stack with _ | ⟨_ | _, clients, a₂⟩
    · rw [hask] at hasked
      cases hasked
    · rw [hask] at hasked
      exact ⟨false, clients, a₂, rfl, (Option.some.inj hasked).symm⟩
    · rw [hask] at hasked
      exact ⟨true, clients, a₂, rfl, (Option.some.inj hasked).symm⟩
  · rintro ⟨ok, clients, a₂, hask, rfl⟩
    rw [hask]
    cases ok with
    | false => rfl
    | true => rfl

theorem asksSoundly_silent (h : Silent inbox) : AsksSoundly stack inbox := by
  obtain ⟨a', heq⟩ := @askRegistry_silent (start stack inbox) stack h
  refine ⟨⟨[], [], 1, a'⟩, by rw [askList, heq], ?_⟩
  rw [takeList, takeRegistry_silent h]
  refine ⟨rfl, rfl, fun herr => ?_, fun hall => ?_⟩
  · cases herr
  · cases hall

/-- Behind all the spies, the second number decides. -/
theorem asksSoundly_spies_iff (h : takeRegistry inbox = (spies, some rest)) :
    AsksSoundly stack inbox ↔ Silent rest ∨ (takeRegistry rest).2.isSome := by
  obtain ⟨a₁, heq₁, rfl, hnumber₁⟩ := @askRegistry_take (start stack inbox) stack spies rest
    (start_number stack inbox) h
  have htake : takeList inbox =
      (spies, (takeRegistry a₁.inbox).1, (takeRegistry a₁.inbox).2.isSome) := by
    rw [takeList, h]
  rw [AsksSoundly, htake]
  by_cases hsilent : Silent a₁.inbox
  · refine iff_of_true ?_ (.inl hsilent)
    obtain ⟨a₂, heq₂⟩ := @askRegistry_silent a₁ stack hsilent
    refine ⟨_, (askList_spies_iff heq₁).mpr ⟨_, _, _, heq₂, rfl⟩, rfl, ?_⟩
    rw [takeRegistry_silent hsilent]
    refine ⟨rfl, fun herr => ?_, fun hall => ?_⟩
    · cases herr
    · cases hall
  · rcases hregistry : takeRegistry a₁.inbox with ⟨clients, _ | rest⟩
    · apply iff_of_false
      · -- the loss goes unnoticed, so the result is 0
        rintro ⟨asked, hasked, _, _, herr⟩
        obtain ⟨ok, shown, a₂, hask, rfl⟩ := (askList_spies_iff heq₁).mp hasked
        obtain ⟨rfl, _⟩ := askRegistry_lost hnumber₁ hsilent hregistry hask
        cases herr.mp rfl
      · rintro (hquiet | hall)
        · exact hsilent hquiet
        · cases hall
    · refine iff_of_true ?_ (.inr rfl)
      obtain ⟨a₂, heq₂, _, _⟩ := @askRegistry_take a₁ stack _ _ hnumber₁ hregistry
      exact ⟨_, (askList_spies_iff heq₁).mpr ⟨_, _, _, heq₂, rfl⟩, rfl, rfl,
        fun _ => rfl, fun _ => rfl⟩

/-- Where a spy is lost, only a number that is zero by chance hides it, and the error
has to come from the second number. -/
theorem asksSoundly_lost_iff (hsilent : ¬ Silent inbox)
    (h : takeRegistry inbox = (spies, none)) :
    AsksSoundly stack inbox ↔
      ZeroByChance (start stack inbox).number inbox ∧ Silent (deliver 4 inbox).2 := by
  have hlost := @askRegistry_lost (start stack inbox) stack spies
  have htake : takeList inbox = (spies, [], false) := by rw [takeList, h]
  rw [AsksSoundly, htake]
  constructor
  · rintro ⟨asked, hasked, hspies, _, herr⟩
    rcases hask : (start stack inbox).askRegistry stack with _ | ⟨ok, shown, a₁⟩
    · rw [askList, hask] at hasked
      cases hasked
    · obtain ⟨rfl, hshown⟩ := hlost (start_number stack inbox) hsilent h hask
      obtain ⟨ok, clients, a₂, hask₁, rfl⟩ := (askList_spies_iff hask).mp hasked
      have hchance := hshown.mp hspies
      obtain ⟨a', heq', hinbox⟩ := @askRegistry_chance (start stack inbox) stack hchance
      rw [hask] at heq'
      cases heq'
      refine ⟨hchance, ?_⟩
      rw [← show a₁.inbox = (deliver 4 inbox).2 from hinbox]
      by_contra hmore
      obtain rfl := askRegistry_true hmore hask₁
      cases herr.mp rfl
  · rintro ⟨hchance, hquiet⟩
    obtain ⟨a₁, heq₁, hinbox⟩ := @askRegistry_chance (start stack inbox) stack hchance
    obtain ⟨_, hshown⟩ := hlost (start_number stack inbox) hsilent h heq₁
    obtain ⟨a₂, heq₂⟩ := @askRegistry_silent a₁ stack (by rw [hinbox]; exact hquiet)
    refine ⟨_, (askList_spies_iff heq₁).mpr ⟨_, _, _, heq₂, rfl⟩, hshown.mpr hchance, rfl,
      fun herr => ?_, fun hall => ?_⟩
    · cases herr
    · cases hall

end

/-- `AskList` does what it should as long as the server stops in front of a number or
sends all that it announces. -/
theorem asksSoundly_iff (stack : AskStack) (inbox : List (List UInt8)) :
    AsksSoundly stack inbox ↔ BreaksOffBetween stack inbox := by
  rw [BreaksOffBetween]
  by_cases hsilent : Silent inbox
  · exact iff_of_true (asksSoundly_silent hsilent) (.inl hsilent)
  · have hchance : ZeroByChance (start stack inbox).number inbox →
        (takeRegistry inbox).2 = none := by
      rintro ⟨_, hcut, _⟩
      rw [takeRegistry, takeField, if_neg (Nat.ne_of_lt hcut)]
    rcases hregistry : takeRegistry inbox with ⟨spies, _ | rest⟩
    · rw [asksSoundly_lost_iff hsilent hregistry]
      constructor
      · exact fun h => .inr (.inr h)
      · rintro (hquiet | ⟨rest, hrest, _⟩ | h)
        · exact absurd hquiet hsilent
        · cases hrest
        · exact h
    · rw [asksSoundly_spies_iff hregistry]
      constructor
      · exact fun h => .inr (.inl ⟨rest, rfl, h⟩)
      · rintro (hquiet | ⟨rest', hrest, h⟩ | ⟨h, _⟩)
        · exact absurd hquiet hsilent
        · cases hrest
          exact h
        · rw [hregistry] at hchance
          cases hchance h

/-- No spy, one client, and the connection is closed: a record that nobody sent is
displayed and the result is 0. -/
theorem asksSoundly_fails :
    (askList (fun _ _ _ => 0) [[0, 0, 0, 0], [1, 0, 0, 0]]).map
        (fun asked => (asked.clients.length, asked.err)) = some (1, 0) ∧
      takeList [[0, 0, 0, 0], [1, 0, 0, 0]] = ([], [], false) ∧
      ¬ AsksSoundly (fun _ _ _ => 0) [[0, 0, 0, 0], [1, 0, 0, 0]] := by
  refine ⟨by decide +kernel, by decide +kernel, ?_⟩
  rintro ⟨asked, hasked, _, hclients, _⟩
  have hlength : (askList (fun _ _ _ => 0) [[0, 0, 0, 0], [1, 0, 0, 0]]).map
      (fun asked => asked.clients.length) = some 1 := by decide +kernel
  rw [hasked] at hlength
  rw [Option.map_some, hclients] at hlength
  revert hlength
  decide +kernel

end Vwifi
