import Vwifi.Lib.Broadcast
import Vwifi.OrderInbox
import Vwifi.Streams

/-!
# The server as a medium

Along a run of the main loop, what the connected peers are sent is what a shared
medium would let them hear: every frame that is read goes to all the others, in
one order for all of them, at the level of each recipient. `events` is what a
step adds to the history of that medium.
-/

namespace Vwifi

set_option autoImplicit false

open Broadcast

/-- A frame as its sender transmitted it. -/
structure Signal where
  power : TPower
  data : List UInt8

/-- The bytes of a frame as it was transmitted. -/
def Signal.bytes (n : Signal) : List UInt8 := n.power.toUInt8 :: n.data

/-- How a recipient gets a frame: at which level, and whether packets can be lost. -/
structure Hearing where
  level : TPower
  lossy : Bool

/-- Who joins brings all the bytes its peer will deliver. -/
abbrev History := List (Event TDescriptor (List UInt8) Signal Hearing)

def heardBytes (x : Signal × Hearing) : List UInt8 := x.2.level.toUInt8 :: x.1.data

def MayMiss (x : Signal × Hearing) : Prop :=
  x.2.lossy = true ∧ CWifi.losable x.2.level = true

def MustMiss (x : Signal × Hearing) : Prop :=
  x.2.lossy = true ∧ CWifi.inaudible x.2.level = true

/-- The enabled entries, each with the level at which it gets a frame. -/
def audience (level : Entry → TPower) (lossy : Bool) (es : List Entry) :
    List (TDescriptor × Hearing) :=
  (es.filter Entry.enabled).map fun e => (e.descriptor, ⟨level e, lossy⟩)

/-- The bytes `RecvSignal` takes from a connection for a frame: the power byte and
at least a header. -/
def Signal.ReadFrom (taken : List UInt8) (s : Signal) : Prop :=
  ∃ rest, taken = s.power.toUInt8 :: rest ∧
    rest.length = max sizeofNlmsghdr (CWifi.nlmsgLen rest).toNat ∧
    0 < CWifi.nlmsgLen rest ∧ CWifi.nlmsgLen rest ≤ mtu ∧
    s.data = rest.take (CWifi.nlmsgLen rest).toNat

/-- A message with a complete header that counts all its bytes. -/
def Signal.Whole (s : Signal) : Prop :=
  sizeofNlmsghdr ≤ s.data.length ∧ CWifi.nlmsgLen s.data = s.data.length

/-! ## One frame -/

namespace Signal

variable {taken : List UInt8} {s : Signal}

theorem ReadFrom.bytes_prefix (h : s.ReadFrom taken) : s.bytes <+: taken := by
  obtain ⟨rest, rfl, _, _, _, hdata⟩ := h
  rw [bytes, hdata]
  exact List.cons_prefix_cons.mpr ⟨rfl, List.take_prefix _ _⟩

/-- Of a message shorter than a header the rest of the header is left out. -/
theorem ReadFrom.whole_iff (h : s.ReadFrom taken) : s.Whole ↔ taken = s.bytes := by
  obtain ⟨rest, rfl, hlength, hpos, _, hdata⟩ := h
  have hcount : s.data.length = (CWifi.nlmsgLen rest).toNat := by
    rw [hdata, List.length_take]
    omega
  constructor
  · intro hwhole
    have hle := hwhole.1
    rw [bytes, hdata, List.take_of_length_le (by omega)]
  · intro hsame
    have hrest : rest = s.data := (List.cons.inj hsame).2
    rw [hrest] at hlength hpos hcount
    constructor <;> omega

end Signal

/-- The bytes taken are those of the messages exactly when all of these are whole. -/
theorem flatten_eq_bytes_iff {taken : List (List UInt8)} {said : List Signal}
    (h : List.Forall₂ Signal.ReadFrom taken said) :
    taken.flatten = said.flatMap Signal.bytes ↔ ∀ n ∈ said, n.Whole := by
  have hshort : ∀ {taken said}, List.Forall₂ Signal.ReadFrom taken said →
      (said.flatMap Signal.bytes).length ≤ taken.flatten.length := by
    intro taken said h
    induction h with
    | nil => exact Nat.le_refl _
    | cons hhead _ ih =>
      have hle := hhead.bytes_prefix.length_le
      rw [List.flatMap_cons, List.flatten_cons, List.length_append, List.length_append]
      omega
  induction h with
  | nil => simp
  | @cons front n taken said hhead htail ih =>
    rw [List.flatten_cons, List.flatMap_cons, List.forall_mem_cons, hhead.whole_iff]
    constructor
    · intro hsame
      have hlength := congrArg List.length hsame
      have hle := hhead.bytes_prefix.length_le
      have hle' := hshort htail
      rw [List.length_append, List.length_append] at hlength
      obtain ⟨hfront, hrest⟩ := List.append_inj hsame (by omega)
      exact ⟨hfront, ih.mp hrest⟩
    · intro hwhole
      rw [hwhole.1, ih.mpr hwhole.2]

section Audience

variable {level : Entry → TPower} {lossy : Bool} {es es' : List Entry} {d : TDescriptor}

theorem audience_cons_enabled {e : Entry} (h : e.enabled = true) :
    audience level lossy (e :: es) =
      (e.descriptor, ⟨level e, lossy⟩) :: audience level lossy es := by
  rw [audience, List.filter_cons_of_pos h, List.map_cons]
  rfl

theorem audience_cons_disabled {e : Entry} (h : e.enabled = false) :
    audience level lossy (e :: es) = audience level lossy es := by
  rw [audience, List.filter_cons_of_neg (by rw [h]; exact Bool.false_ne_true)]
  rfl

theorem shares_audience_length (n : Signal) :
    (shares d n (audience level lossy es)).length ≤ holders es d := by
  induction es with
  | nil => exact Nat.zero_le _
  | cons e es ih =>
    rw [holders_cons]
    cases henabled : e.enabled with
    | false =>
      rw [audience_cons_disabled henabled]
      omega
    | true =>
      rw [audience_cons_enabled henabled]
      by_cases hd : e.descriptor = d
      · subst hd
        rw [shares_cons_self, List.length_cons, if_pos rfl]
        omega
      · rw [shares_cons_of_ne hd]
        omega

theorem mem_audience {x : TDescriptor × Hearing} (h : x ∈ audience level lossy es) :
    1 ≤ holders es x.1 := by
  obtain ⟨e, he, rfl⟩ := List.mem_map.mp h
  exact holders_pos (List.mem_filter.mp he).1

/-- What a connection is sent of one frame, if it is not disabled by it: all of it,
or nothing where it may miss it. -/
theorem Delivers.thins {data : List UInt8} {acts : List Act}
    (h : Delivers lossy level data es acts es') (power : TPower)
    (hkept : ∀ e ∈ es', e.descriptor = d → e.enabled = true) (log : List Act) :
    ∃ got, Thins MayMiss MustMiss (shares d ⟨power, data⟩ (audience level lossy es)) got ∧
      sentOn d (log ++ acts) = sentOn d log ++ got.flatMap heardBytes := by
  induction h generalizing log with
  | nil => exact ⟨[], .nil, by rw [List.append_nil, List.flatMap_nil, List.append_nil]⟩
  | disabled henabled _ ih =>
    rw [audience_cons_disabled henabled]
    exact ih (fun e he => hkept e (List.mem_cons_of_mem _ he)) log
  | @lost e es es' acts henabled hlose hlevel _ ih =>
    obtain ⟨got, hthins, hsent⟩ := ih (fun e he => hkept e (List.mem_cons_of_mem _ he)) log
    rw [audience_cons_enabled henabled]
    by_cases hd : e.descriptor = d
    · subst hd
      have hmay : MayMiss (⟨power, data⟩, ⟨level e, lossy⟩) := ⟨hlose, hlevel⟩
      rw [shares_cons_self]
      exact ⟨got, Thins.miss hmay hthins, hsent⟩
    · rw [shares_cons_of_ne hd]
      exact ⟨got, hthins, hsent⟩
  | @called e es es' acts calls sent henabled hcall hlevel _ ih =>
    obtain ⟨got, hthins, hsent⟩ :=
      ih (fun e he => hkept e (List.mem_cons_of_mem _ he)) (log ++ calls)
    rw [audience_cons_enabled henabled, ← List.append_assoc, hsent]
    by_cases hd : e.descriptor = d
    · -- a recipient that is still enabled got the whole frame
      have hwhole : sent = true := by
        have := hkept _ List.mem_cons_self (by cases sent <;> exact hd)
        cases sent with
        | false => exact absurd this Bool.false_ne_true
        | true => rfl
      subst hwhole hd
      rw [shares_cons_self]
      have hkeep : ¬ MustMiss (⟨power, data⟩, ⟨level e, lossy⟩) := fun hmust =>
        Bool.false_ne_true ((hlevel hmust.1).symm.trans hmust.2)
      refine ⟨_, Thins.keep hkeep hthins, ?_⟩
      cases hcall
      rw [List.flatMap_cons, ← List.append_assoc, List.append_cons, sentOn_send_self,
        sentOn_send_self, List.take_length, List.append_assoc (sentOn e.descriptor log)]
      rfl
    · rw [shares_cons_of_ne hd, (sendCases_sent hcall log).1 hd]
      exact ⟨got, hthins, rfl⟩

theorem holders_enabled {e : Entry} (hone : holders es d ≤ 1) (hlive : LiveIn es d) (he : e ∈ es)
    (hd : e.descriptor = d) : e.enabled = true := by
  obtain ⟨a, ha, henabled, had⟩ := hlive
  obtain ⟨before, after, hes⟩ := List.append_of_mem ha
  subst hes
  rw [holders_append, holders_cons, if_pos had] at hone
  rcases List.mem_append.mp he with hbefore | hafter
  · have := holders_pos hbefore
    rw [hd] at this
    omega
  · rcases List.mem_cons.mp hafter with rfl | hafter
    · exact henabled
    · have := holders_pos hafter
      rw [hd] at this
      omega

end Audience

namespace Config

/-- The frame a round of a pass reads, with those that may get it. -/
def transmission (medium : Medium) (s : Server) (srcIsSpy : Bool) (i : TIndex) : History :=
  match (s.registry srcIsSpy).entries[i]? with
  | none => []
  | some e =>
    let g := s.globals
    let r := Pass.received g e
    if e.enabled ∧ Pass.ready g e ∧ ¬ r.valread ≤ 0 then
      let data := Pass.frame r
      [.said e.descriptor ⟨r.power, data⟩
        (audience (Pass.levelFrom medium srcIsSpy g e r.power data) (Pass.mayLose srcIsSpy g)
            ((s.registry srcIsSpy).entries.eraseIdx i) ++
          audience (fun _ => r.power) false (s.registry !srcIsSpy).entries)]
    else []

/-- What a step adds to the history of the medium. -/
def events (medium : Medium) (c : Config) (l : Label) : History :=
  match c.phase, l with
  | .acceptVTCP, .connectVm inc _ => [.joined inc.descriptor (Segmented.supply inc.inbox)]
  | .acceptITCP, .connectIn inc _ => [.joined inc.descriptor (Segmented.supply inc.inbox)]
  | .acceptSPY, .connectIn inc _ => [.joined inc.descriptor (Segmented.supply inc.inbox)]
  | .forward srcIsSpy i, .skip => transmission medium c.server srcIsSpy i
  | _, _ => []

/-- The history of a run from the start of the server. -/
def history (medium : Medium) (setup : Setup) (ls : List Label) : History :=
  Lts.outputs (step medium) (events medium) (init setup) ls

/-- What the connection `d` was sent is what it could hear, without some of the
frames it may miss; and what it said was read from what its peer wrote. -/
structure Follows (d : TDescriptor) (k : Kernel) (h : History) : Prop where
  heard : ∃ got, Thins MayMiss MustMiss (heardBy d h) got ∧ sentOn d k.log = got.flatMap heardBytes
  said : ∃ written taken, broughtBy d h = some written ∧
    written = taken.flatten ++ k.supply d ∧ List.Forall₂ Signal.ReadFrom taken (saidBy d h)

/-- The history accounts for all connections that are live. -/
structure Records (v : Bool → Registry) (k : Kernel) (h : History) : Prop where
  follows : ∀ d, LiveOf v d → Follows d k h
  proper : ∀ e ∈ h, e.Proper

section Steps

variable {v v' : Bool → Registry} {k k' : Kernel} {h : History}

theorem Records.quiet (hr : Records v k h)
    (hstep : ∀ d, LiveOf v' d → LiveOf v d ∧ sentOn d k'.log = sentOn d k.log ∧
      k'.supply d = k.supply d) : Records v' k' (h ++ []) := by
  rw [List.append_nil]
  refine ⟨fun d hlive => ?_, hr.proper⟩
  obtain ⟨hlive', hsent, hsupply⟩ := hstep d hlive
  obtain ⟨heard, said⟩ := hr.follows d hlive'
  rw [← hsent] at heard
  rw [← hsupply] at said
  exact ⟨heard, said⟩

theorem Records.joined {b : Bool} {inc : Incoming} {cid : TCID} {r : Registry}
    (hr : Records v k h) (hconnect : (v b).connect inc.descriptor cid = some r) :
    Records (Function.update v b r) (k.accept inc)
      (h ++ [.joined inc.descriptor (Segmented.supply inc.inbox)]) := by
  have hlog : (k.accept inc).log = k.log ++ [.accept inc.descriptor] := rfl
  refine ⟨fun d hlive => ?_, ?_⟩
  · by_cases hd : inc.descriptor = d
    · subst hd
      refine ⟨⟨[], ?_, ?_⟩, ⟨Segmented.supply inc.inbox, [], ?_, ?_, ?_⟩⟩
      · rw [heardBy_joined, if_pos rfl]
        exact Thins.nil
      · rw [hlog, sentOn_accept, if_pos rfl]
        rfl
      · rw [broughtBy_joined, if_pos rfl]
      · simp only [List.flatten_nil, List.nil_append, Kernel.supply, Kernel.accept,
          Function.update_self]
      · rw [saidBy_joined, if_pos rfl]
        exact List.Forall₂.nil
    · obtain ⟨es, w, hentries, _, hweak⟩ := connect_entries hconnect
      have hnew : LiveIn r.entries d → LiveIn (v b).entries d := by
        rw [hentries, liveIn_append, liveIn_cons]
        intro hcases
        rcases hcases with hold | ⟨_, hself⟩ | ⟨_, hnil, _⟩
        · exact hold.weakened hweak
        · exact absurd hself hd
        · cases hnil
      have hlive' : LiveOf v d := by
        rw [liveOf_both _ b, Function.update_self, Function.update_of_ne (by simp)] at hlive
        rw [liveOf_both v b]
        exact hlive.imp_left hnew
      obtain ⟨heard, said⟩ := hr.follows d hlive'
      have hsupply : (k.accept inc).supply d = k.supply d := by
        simp only [Kernel.supply, Kernel.accept, Function.update_of_ne (Ne.symm hd)]
      refine ⟨?_, ?_⟩
      · rw [heardBy_joined, if_neg hd, hlog, sentOn_accept, if_neg hd]
        exact heard
      · rw [broughtBy_joined, if_neg hd, saidBy_joined, if_neg hd, hsupply]
        exact said
  · intro e he
    rcases List.mem_append.mp he with he | he
    · exact hr.proper e he
    · rw [List.mem_singleton.mp he]
      trivial

/-- One accepted call takes the bytes of its frame from the front of the stream. -/
theorem received_readFrom {g : Globals} {e : Entry} (hread : ¬ (Pass.received g e).valread ≤ 0) :
    ∃ taken, g.kernel.supply e.descriptor =
        taken ++ (Pass.received g e).kernel.supply e.descriptor ∧
      Signal.ReadFrom taken ⟨(Pass.received g e).power, Pass.frame (Pass.received g e)⟩ := by
  have hcases : CWifi.RecvCases g.kernel e.descriptor (Pass.received g e) :=
    CWifi.recvSignal_cases g.kernel e.descriptor 0 g.buffer
  cases hcases with
  | failed h _ =>
    rw [h] at hread
    exact absurd (by decide) hread
  | stored b rest supply header valread bounded arrived power message left =>
    have hlen : (rest.take (max sizeofNlmsghdr (CWifi.nlmsgLen rest).toNat)).length =
        max sizeofNlmsghdr (CWifi.nlmsgLen rest).toNat := by
      rw [List.length_take]
      omega
    have hfour : (rest.take (max sizeofNlmsghdr (CWifi.nlmsgLen rest).toNat)).take 4 =
        rest.take 4 := by
      rw [List.take_take, Nat.min_eq_left]
      simp only [sizeofNlmsghdr]
      omega
    have hsame := CWifi.nlmsgLen_congr hfour
    rw [valread] at left bounded hread message
    generalize htaken : rest.take (max sizeofNlmsghdr (CWifi.nlmsgLen rest).toNat) = taken
      at hlen hsame
    refine ⟨b :: taken, ?_, taken, ?_, ?_⟩
    · rw [supply, left, List.cons_append, ← htaken, List.take_append_drop]
    · rw [power]
      rfl
    · rw [hsame]
      refine ⟨hlen, Int.not_le.mp hread, bounded, ?_⟩
      rw [Pass.frame, valread, message, ← htaken, List.take_take,
        Nat.min_eq_left (Nat.le_max_right _ _)]

variable {medium : Medium} {srcIsSpy : Bool} {before after : List Entry} {e : Entry}
  {r q : Registry} {g g' : Globals} {i : TIndex}

/-- The case of a round in which a frame is forwarded. -/
theorem transmission_eq {s : Server} (hv : s.Views v)
    (hentries : (v srcIsSpy).entries = before ++ e :: after) :
    transmission medium s srcIsSpy before.length =
      if e.enabled ∧ Pass.ready s.globals e ∧ ¬ (Pass.received s.globals e).valread ≤ 0 then
        [.said e.descriptor
          ⟨(Pass.received s.globals e).power, Pass.frame (Pass.received s.globals e)⟩
          (audience (Pass.levelFrom medium srcIsSpy s.globals e (Pass.received s.globals e).power
              (Pass.frame (Pass.received s.globals e))) (Pass.mayLose srcIsSpy s.globals)
              (before ++ after) ++
            audience (fun _ => (Pass.received s.globals e).power) false (v !srcIsSpy).entries)]
      else [] := by
  have hsrc : (s.registry srcIsSpy).entries = before ++ e :: after := by
    rw [hv srcIsSpy, Registry.server_entries, hentries]
  have hother : (s.registry !srcIsSpy).entries = (v !srcIsSpy).entries := by
    rw [hv (!srcIsSpy), Registry.server_entries]
  have hget : (before ++ e :: after)[before.length]? = some e := by simp
  have herase : (before ++ e :: after).eraseIdx before.length = before ++ after := by
    rw [List.eraseIdx_append_of_length_le (Nat.le_refl _), Nat.sub_self]
    rfl
  simp only [transmission, hsrc, hother, hget, herase]

theorem audience_append (level : Entry → TPower) (lossy : Bool) (es fs : List Entry) :
    audience level lossy (es ++ fs) = audience level lossy es ++ audience level lossy fs := by
  rw [audience, List.filter_append, List.map_append]
  rfl

section Forwarded

variable {before' after' heldOther others' : List Entry} {acts₁ acts₂ acts₃ : List Act}
  {level : Entry → TPower} {lossy : Bool}

/-- The three loops that hand out one frame, for a recipient that stays enabled. -/
theorem handedOut {n : Signal} (hbefore : Delivers lossy level n.data before acts₁ before')
    (hafter : Delivers lossy level n.data after acts₂ after')
    (hothers : Delivers false (fun _ => n.power) n.data heldOther acts₃ others') {d : TDescriptor}
    (hkept : ∀ e ∈ before' ++ after' ++ others', e.descriptor = d → e.enabled = true)
    (log : List Act) :
    ∃ got, Thins MayMiss MustMiss (shares d n (audience level lossy (before ++ after) ++
        audience (fun _ => n.power) false heldOther)) got ∧
      sentOn d (log ++ (acts₁ ++ acts₂ ++ acts₃)) = sentOn d log ++ got.flatMap heardBytes := by
  obtain ⟨got₁, hthins₁, hsent₁⟩ := hbefore.thins n.power
    (fun e he => hkept e (List.mem_append_left _ (List.mem_append_left _ he))) log
  obtain ⟨got₂, hthins₂, hsent₂⟩ := hafter.thins n.power
    (fun e he => hkept e (List.mem_append_left _ (List.mem_append_right _ he))) (log ++ acts₁)
  obtain ⟨got₃, hthins₃, hsent₃⟩ := hothers.thins n.power
    (fun e he => hkept e (List.mem_append_right _ he)) (log ++ acts₁ ++ acts₂)
  refine ⟨got₁ ++ got₂ ++ got₃, ?_, ?_⟩
  · rw [audience_append, shares_append, shares_append]
    exact (hthins₁.append hthins₂).append hthins₃
  · rw [← List.append_assoc, ← List.append_assoc, hsent₃, hsent₂, hsent₁, List.flatMap_append,
      List.flatMap_append]
    simp only [List.append_assoc]

/-- The connections are held once each, by the sender or by a recipient. -/
theorem held_once (hl : ∀ d, holdersOf v d ≤ 1)
    (hentries : (v srcIsSpy).entries = before ++ e :: after) (d : TDescriptor) :
    holders (before ++ after) d + holders (v !srcIsSpy).entries d +
      (if e.descriptor = d then 1 else 0) ≤ 1 := by
  have hle := hl d
  rw [holdersOf_both v srcIsSpy, hentries, holders_append, holders_cons] at hle
  rw [holders_append]
  omega

theorem live_of_handedOut {data : List UInt8} {power : TPower} {d : TDescriptor}
    (hentries : (v srcIsSpy).entries = before ++ e :: after)
    (hbefore : Delivers lossy level data before acts₁ before')
    (hafter : Delivers lossy level data after acts₂ after')
    (hothers : Delivers false (fun _ => power) data (v !srcIsSpy).entries acts₃ others')
    (hlive : LiveIn (before' ++ e :: after') d ∨ LiveIn others' d) : LiveOf v d := by
  rw [liveIn_middle] at hlive
  rw [liveOf_both v srcIsSpy, hentries, liveIn_middle]
  rcases hlive with (hself | hsame) | hother
  · exact Or.inl (Or.inl hself)
  · exact Or.inl (Or.inr (hsame.weakened (List.rel_append hbefore.weakened hafter.weakened)))
  · exact Or.inr (hother.weakened hothers.weakened)

/-- The recipients in the registry of the sender and those in the other one are heard of
once each. -/
theorem shares_recipients_length {n : Signal} (hl : ∀ d, holdersOf v d ≤ 1)
    (hentries : (v srcIsSpy).entries = before ++ e :: after) (d : TDescriptor) :
    (shares d n (audience level lossy (before ++ after) ++
      audience (fun _ => n.power) false (v !srcIsSpy).entries)).length ≤ 1 := by
  have hone := held_once hl hentries d
  have hsrc := @shares_audience_length level lossy (before ++ after) d n
  have hother := @shares_audience_length (fun _ => n.power) false (v !srcIsSpy).entries d n
  rw [shares_append, List.length_append]
  omega

/-- What a connection that stays live is sent in a round that forwards a frame. -/
theorem handedOut_live {n : Signal} (hl : Ledger v g.kernel.log)
    (hentries : (v srcIsSpy).entries = before ++ e :: after)
    (hbefore : Delivers lossy level n.data before acts₁ before')
    (hafter : Delivers lossy level n.data after acts₂ after')
    (hothers : Delivers false (fun _ => n.power) n.data (v !srcIsSpy).entries acts₃ others')
    (hwrites : (Pass.received g e).kernel.Writes k' (acts₁ ++ acts₂ ++ acts₃))
    (hv' : ∀ d, LiveOf v' d ↔ LiveIn (before' ++ e :: after') d ∨ LiveIn others' d)
    {d : TDescriptor} (hlive : LiveOf v' d) :
    ∃ got, Thins MayMiss MustMiss (shares d n (audience level lossy (before ++ after) ++
        audience (fun _ => n.power) false (v !srcIsSpy).entries)) got ∧
      sentOn d k'.log = sentOn d g.kernel.log ++ got.flatMap heardBytes := by
  have hheld := held_once (fun d => (hl d).2.trans (opens_le_one d _)) hentries
  have hheld' : ∀ d, holders (before' ++ after' ++ others') d =
      holders (before ++ after) d + holders (v !srcIsSpy).entries d := by
    intro d
    rw [holders_append, holders_weakened (List.rel_append hbefore.weakened hafter.weakened),
      holders_weakened hothers.weakened]
  have hkept : ∀ a ∈ before' ++ after' ++ others', a.descriptor = d → a.enabled = true := by
    intro a ha had
    have hpos := holders_pos ha
    rw [had, hheld' d] at hpos
    have hone := hheld d
    have hne : e.descriptor ≠ d := by
      intro hd
      rw [if_pos hd] at hone
      omega
    refine holders_enabled ?_ ?_ ha had
    · rw [hheld' d]
      omega
    · rw [hv' d, liveIn_middle] at hlive
      rcases hlive with (hself | hsame) | hother
      · exact absurd hself.2 hne
      · exact liveIn_append.mpr (Or.inl hsame)
      · exact liveIn_append.mpr (Or.inr hother)
  obtain ⟨reads, hreads, hisRead⟩ :=
    (CWifi.recvSignal_readsFrom g.kernel e.descriptor 0 g.buffer).reads
  have hlog : k'.log = g.kernel.log ++ reads ++ (acts₁ ++ acts₂ ++ acts₃) := by
    rw [hwrites.log]
    exact congrArg (· ++ (acts₁ ++ acts₂ ++ acts₃)) hreads
  obtain ⟨got, hthins, hsent⟩ := handedOut hbefore hafter hothers hkept (g.kernel.log ++ reads)
  rw [← hlog, sentOn_reads d _ hisRead] at hsent
  exact ⟨got, hthins, hsent⟩

/-- A round that forwards a frame adds it to the history. -/
theorem Records.said {n : Signal} (hr : Records v g.kernel h) (hl : Ledger v g.kernel.log)
    (hn : n = ⟨(Pass.received g e).power, Pass.frame (Pass.received g e)⟩)
    (hentries : (v srcIsSpy).entries = before ++ e :: after)
    (hread : ¬ (Pass.received g e).valread ≤ 0)
    (hbefore : Delivers lossy level n.data before acts₁ before')
    (hafter : Delivers lossy level n.data after acts₂ after')
    (hothers : Delivers false (fun _ => n.power) n.data (v !srcIsSpy).entries acts₃ others')
    (hwrites : (Pass.received g e).kernel.Writes k' (acts₁ ++ acts₂ ++ acts₃))
    (hv' : ∀ d, LiveOf v' d ↔ LiveIn (before' ++ e :: after') d ∨ LiveIn others' d) :
    Records v' k' (h ++ [.said e.descriptor n (audience level lossy (before ++ after) ++
      audience (fun _ => n.power) false (v !srcIsSpy).entries)]) := by
  have hone : ∀ d, holdersOf v d ≤ 1 := fun d => (hl d).2.trans (opens_le_one d _)
  refine ⟨fun d hlive => ?_, ?_⟩
  · obtain ⟨got', hthins', hsent'⟩ :=
      handedOut_live hl hentries hbefore hafter hothers hwrites hv' hlive
    have hlive' := live_of_handedOut hentries hbefore hafter hothers ((hv' d).mp hlive)
    obtain ⟨⟨got, hthins, hsent⟩, written, taken, hbrought, hwritten, hsaid⟩ := hr.follows d hlive'
    refine ⟨⟨got ++ got', ?_, ?_⟩, ?_⟩
    · rw [heardBy_said]
      exact hthins.append hthins'
    · rw [hsent', hsent, List.flatMap_append]
    · rw [broughtBy_said, saidBy_said]
      have hinbox : k'.supply d = (Pass.received g e).kernel.supply d := by
        rw [Kernel.supply, Kernel.supply, hwrites.inbox]
      rw [hinbox]
      by_cases hd : e.descriptor = d
      · subst hd
        obtain ⟨front, hsupply, hfront⟩ := received_readFrom hread
        refine ⟨written, taken ++ [front], hbrought, ?_, ?_⟩
        · rw [hwritten, hsupply, List.flatten_append, List.flatten_singleton, List.append_assoc]
        · rw [if_pos rfl, hn]
          exact List.rel_append hsaid (List.Forall₂.cons hfront List.Forall₂.nil)
      · have hother : (Pass.received g e).kernel.supply d = g.kernel.supply d :=
          congrArg Segmented.supply
            ((CWifi.recvSignal_readsFrom g.kernel e.descriptor 0 g.buffer).inbox d (Ne.symm hd))
        refine ⟨written, taken, hbrought, ?_, ?_⟩
        · rw [hother, hwritten]
        · rw [if_neg hd]
          exact hsaid
  · intro ev hev
    rcases List.mem_append.mp hev with hev | hev
    · exact hr.proper ev hev
    · rw [List.mem_singleton.mp hev]
      refine ⟨fun x hx hself => ?_, shares_recipients_length hone hentries⟩
      have hself' := held_once hone hentries e.descriptor
      rw [if_pos rfl] at hself'
      rcases List.mem_append.mp hx with hx | hx
      · have := mem_audience hx
        rw [hself] at this
        omega
      · have := mem_audience hx
        rw [hself] at this
        omega

end Forwarded

variable {c c' : Config} {l : Label}

theorem not_held_of_unused {s : Server} {d : TDescriptor} (hl : Ledger v s.kernel.log)
    (hunused : s.unused d = true) : ¬ LiveOf v d := by
  have hle := (hl d).2
  rw [opens, unused_closed hunused, Bool.toNat_false, holdersOf] at hle
  intro hlive
  rcases hlive with hlive | hlive
  · exact not_liveIn_of_holders (by omega) hlive
  · exact not_liveIn_of_holders (by omega) hlive

theorem ordered_live {closed : List Entry} (ho : Server.Ordered v v' closed) {d : TDescriptor}
    (hlive : LiveOf v' d) : LiveOf v d :=
  hlive.imp (ordered_change ho false).live (ordered_change ho true).live

/-- Nothing is sent to the other connections while an order is received. -/
theorem received_sentOn {inc : Incoming} {stack : Stack} {s s' : Server}
    (hreceived : Server.Received inc stack s v s' v') {d : TDescriptor} (hd : inc.descriptor ≠ d) :
    sentOn d s'.kernel.log = sentOn d s.kernel.log := by
  obtain ⟨acts, hlog, hacts⟩ := hreceived.log
  rw [hlog, sentOn_close, sentOn_closeActs, sentOn_talk hd _ hacts, sentOn_accept, if_neg hd]

theorem visit_records (hr : Records v c.server.kernel h) (hl : Ledger v c.server.kernel.log)
    (hv : c.Sees v) (hphase : c.phase = .forward srcIsSpy before.length)
    (hentries : (v srcIsSpy).entries = before ++ e :: after)
    (hcases : Pass.VisitCases medium srcIsSpy (v srcIsSpy) (v !srcIsSpy) c.server.globals before e
      after r q g' i) :
    Records (Function.update (Function.update v srcIsSpy r) (!srcIsSpy) q) g'.kernel
      (h ++ c.events medium .skip) := by
  have hevents : c.events medium .skip = transmission medium c.server srcIsSpy before.length := by
    simp only [events, hphase]
  rw [hevents, transmission_eq hv.views hentries]
  cases hcases with
  | disabled henabled =>
    rw [if_neg (by rw [henabled]; exact fun h => Bool.false_ne_true h.1)]
    refine hr.quiet fun d hlive => ⟨?_, rfl, rfl⟩
    rw [liveOf_pass] at hlive
    rw [liveOf_both v srcIsSpy, hentries]
    exact hlive.imp_left LiveIn.retire
  | unreadable henabled hready hfail =>
    rw [if_neg fun h => h.2.2 hfail]
    refine hr.quiet fun d hlive => ?_
    obtain ⟨reads, hreads, hisRead⟩ :=
      (CWifi.recvSignal_readsFrom c.server.globals.kernel e.descriptor 0
        c.server.globals.buffer).reads
    have hlog : ((Pass.received c.server.globals e).kernel.close e.descriptor).log =
        c.server.globals.kernel.log ++ reads ++ [.close e.descriptor] :=
      congrArg (· ++ [Act.close e.descriptor]) hreads
    rw [liveOf_pass] at hlive
    have hne : e.descriptor ≠ d := by
      intro hd
      have hle := (hl d).2
      have hone := opens_le_one d c.server.kernel.log
      rw [holdersOf_both v srcIsSpy, hentries, holders_append, holders_cons, if_pos hd] at hle
      rcases hlive with hlive | hlive
      · refine not_liveIn_of_holders ?_ hlive
        rw [Registry.retire, holders_append]
        omega
      · exact not_liveIn_of_holders (by omega) hlive
    refine ⟨?_, ?_, ?_⟩
    · rw [liveOf_both v srcIsSpy, hentries]
      exact hlive.imp_left LiveIn.retire
    · rw [hlog, sentOn_close, sentOn_reads d _ hisRead]
      rfl
    · exact congrArg Segmented.supply ((CWifi.recvSignal_readsFrom c.server.globals.kernel
        e.descriptor 0 c.server.globals.buffer).inbox d (Ne.symm hne))
  | idle henabled hready =>
    rw [if_neg fun h => Bool.false_ne_true (hready.symm.trans h.2.1)]
    refine hr.quiet fun d hlive => ⟨?_, rfl, rfl⟩
    rw [liveOf_pass] at hlive
    rwa [liveOf_both v srcIsSpy]
  | forwarded henabled hready hread hbefore hafter hothers hwrites =>
    rw [if_pos ⟨henabled, hready, hread⟩]
    refine Records.said hr hl rfl hentries hread hbefore hafter hothers hwrites fun d => ?_
    rw [liveOf_pass]
    rfl

theorem events_skips {phase : Phase} (hv : c.Sees v) (hskip : Skips c.server c.phase phase)
    (hlabel : l = .skip ∨ l = .refused) : c.events medium l = [] := by
  generalize hphase : c.phase = phase₀ at hskip
  rcases hlabel with rfl | rfl
  · cases hskip with
    | forwarded srcIsSpy i hge =>
      have hnone : (c.server.registry srcIsSpy).entries[i]? = none := by
        rw [hv.views srcIsSpy, Registry.server_getNumberClient] at hge
        rw [hv.views srcIsSpy, Registry.server_entries, List.getElem?_eq_none_iff]
        exact hge
      simp only [events, hphase, transmission, hnone]
    | _ => simp only [events, hphase]
  · cases hskip <;> simp only [events, hphase]

theorem events_accepts {phase : Phase} {isSpy : Bool} {inc : Incoming} {cid : TCID}
    (haccept : Accepts c.server c.phase l phase isSpy inc cid) :
    c.events medium l = [.joined inc.descriptor (Segmented.supply inc.inbox)] := by
  generalize hphase : c.phase = phase₀ at haccept
  cases haccept <;> simp only [events, hphase]

theorem step_records (hr : Records v c.server.kernel h) (hl : Ledger v c.server.kernel.log)
    (hv : c.Sees v) (hstep : step medium c l = some c') (hcases : StepCases medium c l v c' v') :
    Records v' c'.server.kernel (h ++ c.events medium l) := by
  cases hcases with
  | select r hphase hlabel =>
    have hevents : c.events medium l = [] := by simp only [events, hphase, hlabel]
    rw [hevents]
    exact hr.quiet fun d hlive => ⟨hlive, rfl, rfl⟩
  | skip hskip hlabel =>
    rw [events_skips hv hskip hlabel]
    exact hr.quiet fun d hlive => ⟨hlive, rfl, rfl⟩
  | @accept _ isSpy inc cid r haccept hunused hconnect =>
    rw [events_accepts haccept]
    exact hr.joined hconnect
  | @order inc stack s' _ hphase hlabel hready hunused hreceived =>
    have hevents : c.events medium l = [] := by simp only [events, hphase, hlabel]
    have hspares : Server.Spares inc.descriptor c.server s' := by
      simp only [step, hphase, hlabel, hready, hunused, and_self, if_true] at hstep
      obtain ⟨s'', hs'', hnext⟩ := Option.bind_eq_some_iff.mp hstep
      cases hnext
      exact Server.receiveOrder_spares hs'' hv.views hv.ctrlSockets
    rw [hevents]
    refine hr.quiet fun d hlive => ?_
    have hlive' := ordered_live hreceived.ordered hlive
    have hne : inc.descriptor ≠ d := by
      intro hd
      exact not_held_of_unused hl hunused (hd ▸ hlive')
    refine ⟨hlive', received_sentOn hreceived hne, ?_⟩
    exact congrArg Segmented.supply (hspares d (Ne.symm hne))
  | @visit srcIsSpy before after e r q g i hphase hlabel hentries hvisit =>
    have hkernel : (c.server.withPass srcIsSpy ⟨r.server, q.server, g⟩).kernel = g.kernel :=
      withPass_kernel _ _ _
    rw [hkernel, hlabel]
    exact visit_records hr hl hv hphase hentries hvisit

/-- What a step adds to the history, and how the live connections come from those
before it. -/
inductive Adding (medium : Medium) (s : Server) (v v' : Bool → Registry) : History → Prop where
  | nothing (hlive : ∀ b d, LiveIn (v' b).entries d → LiveIn (v b).entries d) :
      Adding medium s v v' []
  | joined (d' : TDescriptor) (written : List UInt8)
      (hlive : ∀ b d, LiveIn (v' b).entries d → d' = d ∨ LiveIn (v b).entries d) :
      Adding medium s v v' [.joined d' written]
  | said (srcIsSpy : Bool) (before after : List Entry) (e : Entry) (n : Signal)
      (hentries : (v srcIsSpy).entries = before ++ e :: after)
      (hlive : ∀ b d, LiveIn (v' b).entries d → LiveIn (v b).entries d) :
      Adding medium s v v' [.said e.descriptor n
        (audience (Pass.levelFrom medium srcIsSpy s.globals e n.power n.data)
            (Pass.mayLose srcIsSpy s.globals) (before ++ after) ++
          audience (fun _ => n.power) false (v !srcIsSpy).entries)]

theorem Change.liveIn {r r' : Registry} {accepted : Option (Incoming × TCID)}
    (hchange : Change r accepted r') {d : TDescriptor} (hlive : LiveIn r'.entries d) :
    (∃ a, accepted = some a ∧ a.1.descriptor = d) ∨ LiveIn r.entries d := by
  cases accepted with
  | none => exact Or.inr (hchange.live hlive)
  | some a =>
    cases hchange with
    | connected hconnect =>
      obtain ⟨es, w, hentries, _, hweak⟩ := connect_entries hconnect
      rw [hentries, liveIn_append, liveIn_cons] at hlive
      rcases hlive with hold | ⟨_, hself⟩ | ⟨_, hnil, _⟩
      · exact Or.inr (hold.weakened hweak)
      · exact Or.inl ⟨_, rfl, hself⟩
      · cases hnil

theorem step_adding (hv : c.Sees v) (hcases : StepCases medium c l v c' v') :
    Adding medium c.server v v' (c.events medium l) := by
  have hchange := hcases.change
  cases hcases with
  | select r hphase hlabel =>
    have hevents : c.events medium l = [] := by simp only [events, hphase, hlabel]
    rw [hevents]
    exact Adding.nothing fun b d hlive => hlive
  | skip hskip hlabel =>
    rw [events_skips hv hskip hlabel]
    exact Adding.nothing fun b d hlive => hlive
  | @accept _ isSpy inc cid r haccept hunused hconnect =>
    rw [events_accepts haccept]
    refine Adding.joined inc.descriptor _ fun b d hlive => ?_
    rcases (hchange b).liveIn hlive with ⟨a, hsome, ha⟩ | hold
    · have hof := haccept.acceptOf b
      rw [show Config.acceptOf ⟨c.phase, c.server⟩ l b = some a from hsome] at hof
      split at hof
      · cases hof
        exact Or.inl ha
      · cases hof
    · exact Or.inr hold
  | @order inc stack s' _ hphase hlabel hready hunused hreceived =>
    have hevents : c.events medium l = [] := by simp only [events, hphase, hlabel]
    rw [hevents]
    exact Adding.nothing fun b d hlive => (ordered_change hreceived.ordered b).live hlive
  | @visit srcIsSpy before after e r q g i hphase hlabel hentries hvisit =>
    have hlive : ∀ b d,
        LiveIn (Function.update (Function.update v srcIsSpy r) (!srcIsSpy) q b).entries d →
        LiveIn (v b).entries d := by
      intro b d hlive
      rcases (hchange b).liveIn hlive with ⟨a, hsome, _⟩ | hold
      · subst hlabel
        cases b <;> simp [acceptOf, hphase] at hsome
      · exact hold
    have hevents : c.events medium l = transmission medium c.server srcIsSpy before.length := by
      simp only [events, hphase, hlabel]
    rw [hevents, transmission_eq hv.views hentries]
    split
    · exact Adding.said srcIsSpy before after e ⟨_, _⟩ hentries hlive
    · exact Adding.nothing hlive

end Steps

end Config

end Vwifi
