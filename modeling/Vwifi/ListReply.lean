import Vwifi.CtrlClient
import Vwifi.Handling
import Vwifi.Streams

/-!
# The reply to LIST

`SendList` announces the number of all entries of a registry and sends the
enabled ones. So `AskList` reads back what the registries hold exactly when the
two numbers agree.
-/

namespace Vwifi

set_option autoImplicit false

open LittleEndian Segmented

/-! ## Reading back records -/

namespace Ask

/-- Between `a` and `a'` every `Read` returned what was asked for, and `rest` is
left to read. -/
structure Reads (a a' : Ask) (rest : List UInt8) : Prop where
  inbox : a'.inbox = atOnce rest
  reads : ∃ reads, a'.reads = a.reads ++ reads ∧ ∀ r ∈ reads, r.1 = r.2

variable {a a' a'' : Ask} {frame : AskFrame} {stack : AskStack} {rest rest' : List UInt8}

theorem Reads.trans (h : a.Reads a' rest) (h' : a'.Reads a'' rest') : a.Reads a'' rest' := by
  obtain ⟨reads, heq, hwhole⟩ := h.reads
  obtain ⟨reads', heq', hwhole'⟩ := h'.reads
  refine ⟨h'.inbox, reads ++ reads', by rw [heq', heq, List.append_assoc], ?_⟩
  intro r hr
  rcases List.mem_append.mp hr with hr | hr
  · exact hwhole r hr
  · exact hwhole' r hr

theorem read_reads {bytes : List UInt8} (v : Var) {n : Nat} (hn : bytes.length = n) (hpos : 0 < n)
    (hinbox : a.inbox = atOnce (bytes ++ rest)) :
    ∃ a', a.read v n = (some ⟨bytes ++ v.bytes.drop n, n⟩, a') ∧ a.Reads a' rest ∧
      a'.number = a.number := by
  subst hn
  have hne : bytes ≠ [] := List.ne_nil_of_length_pos hpos
  refine ⟨{ a with
    inbox := atOnce rest
    reads := a.reads ++ [(bytes.length, bytes.length)] }, ?_, ⟨rfl, _, rfl, ?_⟩, rfl⟩
  · rw [read, hinbox, deliver_atOnce hne, if_neg hne]
  · intro r hr
    rw [List.mem_singleton.mp hr]

theorem store_record (a : Ask) (w : CInfoWifi) {strName : List UInt8}
    (hname : CString.ofBuffer strName = w.name) (hlen : w.name.bytes.length < strName.length) :
    a.store w.cid w.toCCoordinate strName = some (0, { a with info := w }) := by
  have hset : a.info.setCid w.cid = some { a.info with cid := w.cid, cidOk := w.cidOk } :=
    dif_pos w.cidOk
  have hstored : (CInfoWifi.set { a.info with cid := w.cid, cidOk := w.cidOk }
      w.toCCoordinate).setName w.name = w := by
    rw [CInfoWifi.setName, dif_pos w.nameOk]
    rfl
  simp only [store, hset, hname, if_neg (Nat.ne_of_lt hlen), hstored]

theorem drop_uninitialised (frame : AskFrame) (l : AskLocal) (size : Nat) :
    (uninitialised frame l size).bytes.drop size = [] := by
  apply List.drop_of_length_le
  rw [uninitialised, List.length_map, List.length_range]

theorem toInt_image {n : Nat} (h : n ≤ maxSizeName) (received : Nat) :
    Var.toInt ⟨image 4 n, received⟩ = n := by
  have hlt : n < 256 ^ 4 := Nat.lt_of_le_of_lt h (by decide)
  have hsmall : ∀ m, m ≤ maxSizeName → (UInt32.ofNat m).toInt32.toInt = m := by decide
  rw [Var.toInt, Var.toNat, value_image_of_lt hlt, hsmall n h]

/-- The end of `GetCInfoWifi`, from the size of the name on. -/
def readName (frame : AskFrame) (a : Ask) (cid : TCID) (coo : CCoordinate) (size : Int) :
    Option (Int × Ask) :=
  if maxSizeName < size then some (1, a)
  else if 0 < size then
    match a.read (uninitialised frame .strName (maxSizeName + 1)) (size + 1).toNat with
    | (none, a) => some (1, a)
    | (some strName, a) => a.store cid coo strName.bytes
  else a.store cid coo (0 :: (uninitialised frame .strName (maxSizeName + 1)).bytes.tail)

/-- The name is read back with the size that was sent before it. -/
theorem readName_record (w : CInfoWifi)
    (hinbox : a.inbox = atOnce
      ((if 0 < w.name.bytes.length then w.name.bytes ++ [0] else []) ++ rest)) :
    ∃ a', a.readName frame w.cid w.toCCoordinate w.name.bytes.length = some (0, a') ∧
      a.Reads a' rest ∧ a'.info = w ∧ a'.number = a.number := by
  have hlarge : ¬ (maxSizeName : Int) < w.name.bytes.length := by
    have := w.nameOk
    omega
  rw [readName, if_neg hlarge]
  by_cases hname : 0 < w.name.bytes.length
  · rw [if_pos hname] at hinbox
    have hpos : (0 : Int) < w.name.bytes.length := by omega
    have hcount : (w.name.bytes ++ [(0 : UInt8)]).length =
        ((w.name.bytes.length : Int) + 1).toNat := by
      rw [List.length_append, List.length_singleton]
      omega
    obtain ⟨a₁, heq, h, hnumber⟩ := read_reads
      (uninitialised frame .strName (maxSizeName + 1)) hcount (by omega) hinbox
    simp only [if_pos hpos, heq, List.append_assoc, List.singleton_append]
    rw [store_record a₁ w (CString.ofBuffer_append_nul w.name _)]
    · obtain ⟨hinbox₁, hreads⟩ := h
      exact ⟨_, rfl, ⟨hinbox₁, hreads⟩, rfl, hnumber⟩
    · rw [List.length_append, List.length_cons]
      omega
  · rw [if_neg hname] at hinbox
    have hzero : ¬ (0 : Int) < w.name.bytes.length := by omega
    have hempty : w.name.bytes = [] := List.length_eq_zero_iff.mp (by omega)
    rw [if_neg hzero,
      @store_record a w (0 :: (uninitialised frame .strName (maxSizeName + 1)).bytes.tail)]
    · exact ⟨_, rfl, ⟨hinbox, [], (List.append_nil _).symm, fun _ hr => absurd hr List.not_mem_nil⟩,
        rfl, rfl⟩
    · apply CString.ext_bytes
      rw [hempty]
      rfl
    · rw [hempty]
      exact Nat.succ_pos _

/-- `GetCInfoWifi` reads back what `SendCInfoWifi` has sent. -/
theorem getCInfoWifi_record (w : CInfoWifi)
    (hinbox : a.inbox = atOnce ((Server.recordFields w).flatten ++ rest)) :
    ∃ a', a.getCInfoWifi frame = some (0, a') ∧ a.Reads a' rest ∧ a'.info = w ∧
      a'.number = a.number := by
  have hfields : (Server.recordFields w).flatten ++ rest =
      image 4 w.cid.toNat ++ (w.toCCoordinate.bytes ++ (image 4 w.name.bytes.length ++
        ((if 0 < w.name.bytes.length then w.name.bytes ++ [0] else []) ++ rest))) := by
    rw [Server.recordFields, Server.sizeNameBytes]
    split <;> simp
  rw [hfields] at hinbox
  obtain ⟨a₁, heq₁, h₁, hnumber₁⟩ := read_reads (uninitialised frame .cid 4)
    (image_length 4 _) (by decide) hinbox
  obtain ⟨a₂, heq₂, h₂, hnumber₂⟩ := read_reads ⟨CCoordinate.zero.bytes, 0⟩
    (CCoordinate.bytes_length _) (by decide) h₁.inbox
  obtain ⟨a₃, heq₃, h₃, hnumber₃⟩ := read_reads (uninitialised frame .sizeName 4)
    (image_length 4 _) (by decide) h₂.inbox
  obtain ⟨a₄, heq₄, h₄, hinfo, hnumber₄⟩ := @readName_record a₃ frame rest w h₃.inbox
  rw [drop_uninitialised, List.append_nil] at heq₁ heq₃
  have hcid : Var.toCID ⟨image 4 w.cid.toNat, 4⟩ = w.cid := by
    have hlt : w.cid.toNat < 256 ^ 4 := w.cid.toNat_lt
    rw [Var.toCID, Var.toNat, value_image_of_lt hlt, UInt32.ofNat_toNat]
  have hcoo : w.toCCoordinate.bytes ++ CCoordinate.zero.bytes.drop 12 = w.toCCoordinate.bytes :=
    List.append_nil _
  rw [hcoo] at heq₂
  refine ⟨a₄, ?_, ((h₁.trans h₂).trans h₃).trans h₄, hinfo, ?_⟩
  · simp only [getCInfoWifi, heq₁, heq₂, heq₃, toInt_image w.nameOk, hcid,
      CCoordinate.ofBytes_bytes]
    exact heq₄
  · rw [hnumber₄, hnumber₃, hnumber₂, hnumber₁]

theorem askInfos_records (stack : AskStack) (ws : List CInfoWifi)
    (hinbox : a.inbox = atOnce ((ws.flatMap Server.recordFields).flatten ++ rest)) :
    ∃ a', a.askInfos stack ws.length = some (true, ws, a') ∧ a.Reads a' rest ∧
      a'.number = a.number := by
  induction ws generalizing a with
  | nil =>
    exact ⟨a, rfl, ⟨hinbox, [], (List.append_nil _).symm, fun _ hr => absurd hr List.not_mem_nil⟩,
      rfl⟩
  | cons w ws ih =>
    rw [List.flatMap_cons, List.flatten_append, List.append_assoc] at hinbox
    obtain ⟨a₁, heq₁, h₁, hinfo₁, hnumber₁⟩ := getCInfoWifi_record w hinbox
    obtain ⟨a₂, heq₂, h₂, hnumber₂⟩ := ih h₁.inbox
    have herr : ¬ (0 : Int) = socketError := by decide
    refine ⟨a₂, ?_, h₁.trans h₂, hnumber₂.trans hnumber₁⟩
    rw [List.length_cons, askInfos, heq₁]
    simp only [if_neg herr, heq₂, Option.map_some, hinfo₁]

/-- `GetCInfoWifi` returns 1 when it fails, which is not the error `AskList` looks for. -/
theorem getCInfoWifi_err {err : Int} (h : a.getCInfoWifi frame = some (err, a')) :
    err ≠ socketError := by
  have hone : (1 : Int) ≠ socketError := by decide
  have hzero : (0 : Int) ≠ socketError := by decide
  have hstore : ∀ (a : Ask) cid coo strName, a.store cid coo strName = some (err, a') →
      err ≠ socketError := by
    intro a cid coo strName h
    unfold store at h
    split at h
    · cases h
    · dsimp only at h
      split at h <;> cases h
      exact hzero
  unfold getCInfoWifi at h
  split at h
  · cases h
    exact hone
  split at h
  · cases h
    exact hone
  split at h
  · cases h
    exact hone
  dsimp only at h
  split at h
  · cases h
    exact hone
  split at h
  · split at h
    · cases h
      exact hone
    · exact hstore _ _ _ _ h
  · exact hstore _ _ _ _ h

/-- The loop never notices an error, and displays as many records as were announced. -/
theorem askInfos_shown {n : Nat} {ok : Bool} {shown : List CInfoWifi}
    (h : a.askInfos stack n = some (ok, shown, a')) : ok = true ∧ shown.length = n := by
  induction n generalizing a shown with
  | zero =>
    cases h
    exact ⟨rfl, rfl⟩
  | succ n ih =>
    rw [askInfos] at h
    split at h
    · cases h
    · rename_i err a₁ hget
      rw [if_neg (getCInfoWifi_err hget)] at h
      obtain ⟨⟨ok', shown', a₂⟩, hrest, heq⟩ := Option.map_eq_some_iff.mp h
      cases heq
      obtain ⟨hok, hlength⟩ := ih hrest
      rw [List.length_cons, hlength]
      exact ⟨hok, rfl⟩

end Ask

/-! ## Reading back a registry -/

/-- The records of the enabled entries, in the order of the registry. -/
def CWifiServer.enabledInfos (srv : CWifiServer) : List CInfoWifi :=
  (srv.entries.filter Entry.enabled).map Entry.info

/-- The number `SendList` announces, in its four bytes, is the number of records
it sends. With less than 2^32 entries: none of them is disabled. -/
def CWifiServer.AnnouncesEnabled (srv : CWifiServer) : Prop :=
  srv.getNumberClient % 2 ^ 32 = srv.enabledInfos.length

theorem Server.registryFields_flatten (r : Registry) : (registryFields r).flatten =
    image 4 r.entries.length ++ (r.server.enabledInfos.flatMap recordFields).flatten := by
  rw [registryFields, entriesFields, List.flatten_cons, CWifiServer.enabledInfos,
    List.flatMap_map, Registry.server_entries]

namespace Ask

variable {a a' : Ask} {stack : AskStack} {rest : List UInt8} {r : Registry}

theorem askRegistry_number (hnumber : a.number.bytes.length = 4)
    (hinbox : a.inbox = atOnce ((Server.registryFields r).flatten ++ rest)) :
    ∃ a₁, a.askRegistry stack = a₁.askInfos stack (r.server.getNumberClient % 2 ^ 32) ∧
      a.Reads a₁ ((r.server.enabledInfos.flatMap Server.recordFields).flatten ++ rest) ∧
      a₁.number.bytes.length = 4 := by
  rw [Server.registryFields_flatten, List.append_assoc] at hinbox
  obtain ⟨a₁, heq, h, _⟩ := read_reads a.number (image_length 4 _) (by decide) hinbox
  rw [List.drop_of_length_le (Nat.le_of_eq hnumber), List.append_nil] at heq
  refine ⟨{ a₁ with number := ⟨image 4 r.entries.length, 4⟩ }, ?_, ⟨h.inbox, h.reads⟩,
    image_length 4 _⟩
  have hpow : 256 ^ 4 = 2 ^ 32 := by decide
  rw [askRegistry, heq, Registry.server_getNumberClient, ← hpow, ← value_image]
  rfl

/-- When the number is that of the records, they are read back. -/
theorem askRegistry_fields (stack : AskStack) (hannounces : r.server.AnnouncesEnabled)
    (hnumber : a.number.bytes.length = 4)
    (hinbox : a.inbox = atOnce ((Server.registryFields r).flatten ++ rest)) :
    ∃ a', a.askRegistry stack = some (true, r.server.enabledInfos, a') ∧ a.Reads a' rest ∧
      a'.number.bytes.length = 4 := by
  obtain ⟨a₁, heq₁, h₁, hnumber₁⟩ := askRegistry_number hnumber hinbox
  obtain ⟨a₂, heq₂, h₂, hnumber₂⟩ := askInfos_records stack _ h₁.inbox
  rw [hannounces] at heq₁
  exact ⟨a₂, heq₁.trans heq₂, h₁.trans h₂, hnumber₂ ▸ hnumber₁⟩

/-- When they are read back, the number is theirs. -/
theorem announces_of_askRegistry (hnumber : a.number.bytes.length = 4)
    (hinbox : a.inbox = atOnce ((Server.registryFields r).flatten ++ rest)) {ok : Bool}
    (h : a.askRegistry stack = some (ok, r.server.enabledInfos, a')) :
    r.server.AnnouncesEnabled := by
  obtain ⟨a₁, heq₁, _, _⟩ := @askRegistry_number a stack rest r hnumber hinbox
  rw [heq₁] at h
  exact (askInfos_shown h).2.symm

end Ask

/-! ## The two halves -/

/-- The reply to LIST. -/
def Server.replyFields (v : Bool → Registry) : List (List UInt8) :=
  registryFields (v true) ++ registryFields (v false)

theorem Ask.start_number (stack : AskStack) (inbox : List (List UInt8)) :
    (Ask.start stack inbox).number.bytes.length = 4 := by
  rw [start, uninitialised, List.length_map, List.length_range]

theorem Ask.start_inbox (stack : AskStack) (v : Bool → Registry) :
    (Ask.start stack (atOnce (Server.replyFields v).flatten)).inbox =
      atOnce ((Server.registryFields (v true)).flatten ++
        ((Server.registryFields (v false)).flatten ++ [])) := by
  rw [start, Server.replyFields, List.flatten_append, List.append_nil]

/-! ## One LIST -/

/-- A `send` that takes all of its bytes. -/
def Act.isWhole : Act → Bool
  | .send _ data taken => taken = data.length
  | _ => true

namespace Server

variable {d : TDescriptor} {s s' : Server} {v : Bool → Registry}

/-- The calls of `send` for fields that are taken whole. -/
def wholeSends (d : TDescriptor) (fields : List (List UInt8)) : List Act :=
  fields.map fun field => .send d field field.length

theorem sentOn_wholeSends (d : TDescriptor) (log : List Act) (fields : List (List UInt8)) :
    sentOn d (log ++ wholeSends d fields) = sentOn d log ++ fields.flatten := by
  induction fields generalizing log with
  | nil => simp [wholeSends]
  | cons field rest ih =>
    have hcons : log ++ wholeSends d (field :: rest) =
        (log ++ [.send d field field.length]) ++ wholeSends d rest := by
      rw [wholeSends, List.map_cons, List.append_assoc]
      rfl
    rw [hcons, ih, sentOn_send_self, List.take_length, List.flatten_cons, List.append_assoc]

theorem send_ok (data : List UInt8) :
    (s.send d data).1 = true ↔ (s.kernel.send d data).1 = data.length := by
  have hsend : (s.send d data).1 = (CSocket.send s.kernel d data).1.isSome := rfl
  rw [hsend, send_isSome]
  split
  · rename_i hshort
    exact ⟨fun h => absurd h (by decide), fun h => absurd h hshort⟩
  · rename_i hwhole
    exact ⟨fun _ => not_not.mp hwhole, fun _ => rfl⟩

theorem sendAll_acts (fields : List (List UInt8)) (s : Server) :
    ∃ acts, (sendAll d fields s).2.kernel.log = s.kernel.log ++ acts ∧
      ((∀ a ∈ acts, a.isWhole = true) → acts = wholeSends d fields) := by
  induction fields generalizing s with
  | nil => exact ⟨[], (List.append_nil _).symm, fun _ => rfl⟩
  | cons field rest ih =>
    have hlog : (s.send d field).2.kernel.log =
        s.kernel.log ++ [.send d field (s.kernel.send d field).1] := rfl
    have hok := send_ok (s := s) (d := d) field
    rw [sendAll]
    cases hsend : s.send d field with
    | mk ok s₁ =>
      rw [hsend] at hlog hok
      cases ok with
      | false =>
        refine ⟨_, hlog, fun hwhole => ?_⟩
        have htaken := hwhole _ List.mem_cons_self
        rw [Act.isWhole, decide_eq_true_eq] at htaken
        cases hok.mpr htaken
      | true =>
        obtain ⟨acts, hlog₁, hacts⟩ := ih s₁
        refine ⟨.send d field (s.kernel.send d field).1 :: acts, ?_, fun hwhole => ?_⟩
        · rw [hlog₁, hlog, List.append_assoc, List.singleton_append]
        · rw [hacts fun a ha => hwhole a (List.mem_cons_of_mem _ ha), hok.mp rfl]
          rfl

theorem sendAll_room (fields : List (List UInt8)) (s : Server)
    (hroom : s.kernel.room d = fields.map List.length) :
    (sendAll d fields s).2.kernel.log = s.kernel.log ++ wholeSends d fields := by
  induction fields generalizing s with
  | nil => exact (List.append_nil _).symm
  | cons field rest ih =>
    have htaken : (s.kernel.send d field).1 = field.length := by
      rw [Kernel.send, hroom]
      exact Nat.min_self _
    have hsend : s.send d field = (true, (s.send d field).2) :=
      Prod.ext ((send_ok field).mpr htaken) rfl
    have hlog : (s.send d field).2.kernel.log = s.kernel.log ++ [.send d field field.length] := by
      have hsame : (s.send d field).2.kernel.log =
          s.kernel.log ++ [.send d field (s.kernel.send d field).1] := rfl
      rw [hsame, htaken]
    have hroom₁ : (s.send d field).2.kernel.room d = rest.map List.length := by
      have hsame : (s.send d field).2.kernel.room =
          Function.update s.kernel.room d (s.kernel.room d).tail := rfl
      rw [hsame, Function.update_self, hroom]
      rfl
    rw [sendAll, hsend]
    dsimp only
    rw [ih _ hroom₁, hlog, List.append_assoc]
    rfl

theorem getOrder_order (o : TOrder) (hone : s.ctrlSockets.length = 1)
    (hinbox : s.kernel.inbox d = [image 4 o.code]) (stack : Stack) :
    ∃ k, s.getOrder stack d = (o, s.withKernel k) ∧ k.room = s.kernel.room ∧
      k.log = s.kernel.log ++ [.recv d 4 4, .use 4 4] := by
  have hlen : (image 4 o.code).length = 4 := image_length 4 _
  have hdeliver : deliver 4 [image 4 o.code] = (image 4 o.code, []) := rfl
  have hread := read_eq s d (.uninitialised stack .order 4)
  have hsome : (image 4 o.code, ([] : List (List UInt8))).1 ≠ [] := List.cons_ne_nil _ _
  rw [hinbox, Var.uninitialised_length, arriving, hdeliver, if_neg hsome] at hread
  have hlog : (s.kernel.recv d 4).2.log = s.kernel.log ++ [.recv d 4 4] := by
    rw [Kernel.recv, hinbox, hdeliver, hlen]
  have hdrop : (Var.uninitialised stack .order 4).bytes.drop 4 = [] :=
    List.drop_of_length_le (Nat.le_of_eq (Var.uninitialised_length stack .order 4))
  have hfill : (Var.uninitialised stack .order 4).fill (image 4 o.code) = ⟨image 4 o.code, 4⟩ := by
    rw [Var.fill, hlen, hdrop, List.append_nil]
  have hcode : TOrder.ofCode (Var.toNat ⟨image 4 o.code, 4⟩) = o := by
    have hlt : o.code < 256 ^ 4 := by
      cases o <;> decide
    rw [Var.toNat, value_image_of_lt hlt, TOrder.ofCode_code]
  refine ⟨(s.kernel.recv d 4).2.record [.use 4 4], ?_, rfl, ?_⟩
  · rw [getOrder, if_neg (not_not.mpr hone), hread, hfill]
    simp only [hcode]
    rfl
  · have happend : (s.kernel.recv d 4).2.log ++ [.use 4 4] =
        s.kernel.log ++ [.recv d 4 4, .use 4 4] := by
      rw [hlog, List.append_assoc]
      rfl
    exact happend

theorem closeCtrlClient_log (hone : s.ctrlSockets = [⟨d, true⟩]) :
    ∃ s', s.closeCtrlClient = some s' ∧ s'.kernel.log = s.kernel.log ++ [.close d] := by
  simp only [closeCtrlClient, hone]
  exact ⟨_, rfl, rfl⟩

/-- An order that is answered by `fields` sends them between the accept and the close. -/
theorem receiveOrder_fields (o : TOrder) (hctrl : s.ctrlSockets = []) (medium : Medium)
    (stack : Stack) (d : TDescriptor) (room : List Nat) {fields : List (List UInt8)}
    (hserve : ∀ k, ((s.acceptCtrlClient ⟨d, [image 4 o.code], room⟩).withKernel k).serve medium
      stack d o = some (sendAll d fields
      ((s.acceptCtrlClient ⟨d, [image 4 o.code], room⟩).withKernel
        k)).2) :
    ∃ s₁ s', s.receiveOrder medium stack ⟨d, [image 4 o.code], room⟩ = some s' ∧
      s₁.kernel.room d = room ∧
      s₁.kernel.log = s.kernel.log ++ [.accept d, .recv d 4 4, .use 4 4] ∧
      s'.kernel.log = (sendAll d fields s₁).2.kernel.log ++ [.close d] := by
  have hone : (s.acceptCtrlClient ⟨d, [image 4 o.code], room⟩).ctrlSockets = [⟨d, true⟩] := by
    rw [acceptCtrlClient, hctrl]
    rfl
  obtain ⟨k, horder, hroom, hlog⟩ := getOrder_order o (congrArg List.length hone)
    (Function.update_self ..) stack
  have hctrl₁ : (sendAll d fields ((s.acceptCtrlClient ⟨d, [image 4 o.code], room⟩).withKernel
      k)).2.ctrlSockets = [⟨d, true⟩] :=
    (sendAll_sends d fields _).talks.ctrlSockets.trans hone
  obtain ⟨s', hclose, hlog'⟩ := closeCtrlClient_log hctrl₁
  refine ⟨_, s', ?_, ?_, ?_, hlog'⟩
  · simp only [receiveOrder, getSocketCtrl_accept _ hctrl, horder, hserve]
    exact hclose
  · have hroom₁ : k.room d = room := by
      rw [hroom]
      exact Function.update_self ..
    exact hroom₁
  · have haccept : (s.acceptCtrlClient ⟨d, [image 4 o.code], room⟩).kernel.log =
        s.kernel.log ++ [.accept d] := rfl
    have hlog₁ : k.log = s.kernel.log ++ [.accept d, .recv d 4 4, .use 4 4] := by
      rw [hlog, haccept, List.append_assoc]
      rfl
    exact hlog₁

/-- The handler of the order `o` sends `fields`, up to the first failure. -/
def Answers (s : Server) (o : TOrder) (fields : List (List UInt8)) : Prop :=
  ∀ (medium : Medium) (stack : Stack) (d : TDescriptor) (room : List Nat) (k : Kernel),
    ((s.acceptCtrlClient ⟨d, [image 4 o.code], room⟩).withKernel k).serve medium stack d o =
      some (sendAll d fields ((s.acceptCtrlClient ⟨d, [image 4 o.code], room⟩).withKernel k)).2

theorem list_answers (hv : s.Views v) : s.Answers .torderList (replyFields v) := by
  intro medium stack d room k
  exact @sendList_eq ((s.acceptCtrlClient ⟨d, [image 4 TOrder.torderList.code], room⟩).withKernel k)
    _ _ (hv true) (hv false) d

/-- What an order that is answered whole leaves in the log. -/
def answerActs (d : TDescriptor) (fields : List (List UInt8)) : List Act :=
  [.accept d, .recv d 4 4, .use 4 4] ++ wholeSends d fields ++ [.close d]

theorem sentOn_reply (d : TDescriptor) (log : List Act) (fields : List (List UInt8)) :
    sentOn d (log ++ answerActs d fields) = fields.flatten := by
  have hstart : sentOn d (log ++ [.accept d, .recv d 4 4, .use 4 4]) = [] := by
    rw [sentOn_append, List.foldl_cons, sentStep, if_pos rfl]
    rfl
  rw [answerActs, ← List.append_assoc, sentOn_close, ← List.append_assoc, sentOn_wholeSends, hstart,
    List.nil_append]

section Answered

variable {o : TOrder} {fields : List (List UInt8)}

theorem receiveOrder_room (hanswers : s.Answers o fields) (hctrl : s.ctrlSockets = [])
    (medium : Medium) (stack : Stack) (d : TDescriptor) :
    ∃ s', s.receiveOrder medium stack ⟨d, [image 4 o.code], fields.map List.length⟩ = some s' ∧
      s'.kernel.log = s.kernel.log ++ answerActs d fields := by
  obtain ⟨s₁, s', heq, hroom, hlog, hlog'⟩ := receiveOrder_fields o hctrl medium stack d
    (fields.map List.length) (hanswers medium stack d _)
  refine ⟨s', heq, ?_⟩
  rw [hlog', sendAll_room _ s₁ hroom, hlog, answerActs]
  simp only [List.append_assoc]

theorem receiveOrder_whole (hanswers : s.Answers o fields) (hctrl : s.ctrlSockets = [])
    {medium : Medium} {stack : Stack} {d : TDescriptor} {room : List Nat}
    (heq : s.receiveOrder medium stack ⟨d, [image 4 o.code], room⟩ = some s')
    (hwhole : ∀ a ∈ s'.kernel.log.drop s.kernel.log.length, a.isWhole = true) :
    s'.kernel.log = s.kernel.log ++ answerActs d fields := by
  obtain ⟨s₁, s'', heq', _, hlog, hlog'⟩ := receiveOrder_fields o hctrl medium stack d room
    (hanswers medium stack d room)
  rw [heq] at heq'
  cases heq'
  obtain ⟨acts, hacts, hsends⟩ := @sendAll_acts d fields s₁
  rw [hacts, hlog] at hlog'
  have hall : acts = wholeSends d fields := by
    apply hsends
    intro a ha
    apply hwhole
    rw [hlog', List.append_assoc, List.append_assoc, List.drop_left]
    exact List.mem_append_right _ (List.mem_append_left _ ha)
  rw [hlog', hall, answerActs]
  simp only [List.append_assoc]

theorem answerActs_whole (d : TDescriptor) (fields : List (List UInt8)) :
    ∀ a ∈ answerActs d fields, a.isWhole = true := by
  intro a ha
  rcases List.mem_append.mp ha with ha | ha
  · rcases List.mem_append.mp ha with ha | ha
    · simp only [List.mem_cons, List.not_mem_nil, or_false] at ha
      rcases ha with rfl | rfl | rfl <;> rfl
    · obtain ⟨field, _, rfl⟩ := List.mem_map.mp ha
      exact decide_eq_true rfl
  · rw [List.mem_singleton.mp ha]
    rfl

end Answered

end Server

/-- `AskList` has read the reply to its end and has displayed the enabled spies
and the enabled clients, each `Read` bringing what it asked for. -/
structure Asked.Shows (asked : Asked) (s : Server) : Prop where
  spies : asked.spies = s.wifiServerSPY.enabledInfos
  clients : asked.clients = s.wifiServer.enabledInfos
  err : asked.err = 0
  inbox : asked.ask.inbox = []
  reads : ∀ r ∈ asked.ask.reads, r.1 = r.2

namespace Server

/-- The answer to a LIST order, when every `send` takes all of its bytes, is
what `AskList` needs to show the registries. -/
def ListExact (s : Server) : Prop :=
  ∀ (medium : Medium) (stack : Stack) (askStack : AskStack) (d : TDescriptor) (room : List Nat)
    (s' : Server), s.receiveOrder medium stack ⟨d, [askListOrder], room⟩ = some s' →
      (∀ a ∈ s'.kernel.log.drop s.kernel.log.length, a.isWhole = true) →
        ∃ asked, askList askStack (atOnce (sentOn d s'.kernel.log)) = some asked ∧ asked.Shows s

variable {s : Server} {v : Bool → Registry}

theorem listExact_iff_reply (hv : s.Views v) (hctrl : s.ctrlSockets = []) :
    s.ListExact ↔ ∀ askStack, ∃ asked,
      askList askStack (atOnce (replyFields v).flatten) = some asked ∧ asked.Shows s := by
  constructor
  · intro hexact askStack
    obtain ⟨s', heq, hlog⟩ := receiveOrder_room (list_answers hv) hctrl Medium.uniform
      (fun _ _ => 0) 0
    have hwhole : ∀ a ∈ s'.kernel.log.drop s.kernel.log.length, a.isWhole = true := by
      rw [hlog, List.drop_left]
      exact answerActs_whole 0 _
    obtain ⟨asked, hasked, hshows⟩ := hexact _ _ askStack _ _ s' heq hwhole
    rw [hlog, sentOn_reply] at hasked
    exact ⟨asked, hasked, hshows⟩
  · intro hreply medium stack askStack d room s' heq hwhole
    rw [receiveOrder_whole (list_answers hv) hctrl heq hwhole, sentOn_reply]
    exact hreply askStack

/-- Both halves of the reply are read back when both announce what they send. -/
theorem askList_shows (hv : s.Views v) (hspy : s.wifiServerSPY.AnnouncesEnabled)
    (hwifi : s.wifiServer.AnnouncesEnabled) (askStack : AskStack) :
    ∃ asked, askList askStack (atOnce (replyFields v).flatten) = some asked ∧ asked.Shows s := by
  have hspies : s.wifiServerSPY = (v true).server := hv true
  have hclients : s.wifiServer = (v false).server := hv false
  rw [hspies] at hspy
  rw [hclients] at hwifi
  obtain ⟨a₁, heq₁, h₁, hnumber₁⟩ := Ask.askRegistry_fields askStack hspy
    (Ask.start_number askStack _) (Ask.start_inbox askStack v)
  obtain ⟨a₂, heq₂, h₂, _⟩ := Ask.askRegistry_fields askStack hwifi hnumber₁ h₁.inbox
  obtain ⟨reads, hreads, hwhole⟩ := (h₁.trans h₂).reads
  refine ⟨⟨(v true).server.enabledInfos, (v false).server.enabledInfos, 0, a₂⟩, ?_,
    ⟨by rw [hspies], by rw [hclients], rfl, h₂.inbox, ?_⟩⟩
  · simp only [askList, heq₁, heq₂]
  · rw [hreads]
    exact hwhole

/-- And only then: what is displayed has the announced length. -/
theorem announces_of_shows (hv : s.Views v) {askStack : AskStack} {asked : Asked}
    (hasked : askList askStack (atOnce (replyFields v).flatten) = some asked)
    (hshows : asked.Shows s) :
    s.wifiServerSPY.AnnouncesEnabled ∧ s.wifiServer.AnnouncesEnabled := by
  have hspies : s.wifiServerSPY = (v true).server := hv true
  have hclients : s.wifiServer = (v false).server := hv false
  have hspyInfos := hshows.spies
  have hwifiInfos := hshows.clients
  have herr := hshows.err
  have hfailed : ¬ (1 : Int) = 0 := by decide
  rw [hspies] at hspyInfos ⊢
  rw [hclients] at hwifiInfos ⊢
  unfold askList at hasked
  split at hasked
  · cases hasked
  · cases hasked
    exact absurd herr hfailed
  · rename_i spies a heq
    have hshown : spies = (v true).server.enabledInfos := by
      split at hasked <;> cases hasked <;> exact hspyInfos
    rw [hshown] at heq
    have hspy := Ask.announces_of_askRegistry (Ask.start_number askStack _)
      (Ask.start_inbox askStack v) heq
    obtain ⟨a₁, heq₁, h₁, hnumber₁⟩ := Ask.askRegistry_fields askStack hspy
      (Ask.start_number askStack _) (Ask.start_inbox askStack v)
    rw [heq] at heq₁
    cases heq₁
    refine ⟨hspy, ?_⟩
    split at hasked
    · cases hasked
    · cases hasked
      exact absurd herr hfailed
    · rename_i clients a' heq'
      cases hasked
      have hshown' : clients = (v false).server.enabledInfos := hwifiInfos
      rw [hshown'] at heq'
      exact Ask.announces_of_askRegistry hnumber₁ h₁.inbox heq'

theorem listExact_iff (hv : s.Views v) (hctrl : s.ctrlSockets = []) :
    s.ListExact ↔ s.wifiServerSPY.AnnouncesEnabled ∧ s.wifiServer.AnnouncesEnabled := by
  rw [listExact_iff_reply hv hctrl]
  constructor
  · intro hreply
    obtain ⟨asked, hasked, hshows⟩ := hreply fun _ _ _ => 0
    exact announces_of_shows hv hasked hshows
  · rintro ⟨hspy, hwifi⟩ askStack
    exact askList_shows hv hspy hwifi askStack

end Server

namespace Config

/-- In every reachable state a LIST order is answered exactly when the numbers
announced for both registries are those of their enabled entries. -/
theorem list_exact_iff (medium : Medium) (setup : Setup) (ls : List Label) :
    Lts.States (step medium)
      (fun c => c.server.ListExact ↔
        c.server.wifiServerSPY.AnnouncesEnabled ∧ c.server.wifiServer.AnnouncesEnabled)
      (init setup) ls := by
  refine (states_sees medium setup ls).mono ?_
  rintro c ⟨v, hv⟩
  exact Server.listExact_iff hv.views hv.ctrlSockets

/-- A client that reconnects in the iteration that serves the order: two clients
are announced, and one is sent. -/
theorem list_exact_fails :
    ¬ Lts.States (step Medium.uniform)
      (fun c => c.phase = .order → c.server.hasAction c.server.ctrl.master = true →
        c.server.ListExact)
      (init Setup.tcp)
      (Label.joins ⟨10, [], []⟩ ⟨0x020010AC, 0⟩ 3 ++
        [.select (.ready (fun d => d = 3 ∨ d = 5) 2), .skip,
          .connectIn ⟨11, [], []⟩ ⟨0x020010AC, 0⟩, .skip]) := by
  intro h
  have hrun : (Lts.run (step Medium.uniform) (init Setup.tcp)
      (Label.joins ⟨10, [], []⟩ ⟨0x020010AC, 0⟩ 3 ++
        [.select (.ready (fun d => d = 3 ∨ d = 5) 2), .skip,
          .connectIn ⟨11, [], []⟩ ⟨0x020010AC, 0⟩, .skip])).map (fun c =>
      (c.phase, c.server.hasAction c.server.ctrl.master, c.server.wifiServer.enabledInfos.length,
        (c.server.receiveOrder Medium.uniform (fun _ _ => 0)
          ⟨12, [askListOrder], [4, 4, 4, 12, 4]⟩).map fun s' =>
            ((s'.kernel.log.drop c.server.kernel.log.length).all Act.isWhole,
              (askList (fun _ _ _ => 0) (atOnce (sentOn 12 s'.kernel.log))).map fun asked =>
                asked.clients.length))) =
      some (.order, true, 1, some (true, some 2)) := by
    decide +kernel
  obtain ⟨c, hc, hvalues⟩ := Option.map_eq_some_iff.mp hrun
  simp only [Prod.mk.injEq] at hvalues
  obtain ⟨hphase, hready, hone, hserved⟩ := hvalues
  obtain ⟨s', hs', hvalues⟩ := Option.map_eq_some_iff.mp hserved
  simp only [Prod.mk.injEq, List.all_eq_true] at hvalues
  obtain ⟨hwhole, htwo⟩ := hvalues
  obtain ⟨asked, hasked, hshows⟩ := h.last hc hphase hready _ _ (fun _ _ _ => 0) _ _ _ hs' hwhole
  rw [hasked, Option.map_some, hshows.clients, hone] at htwo
  cases htwo

end Config

end Vwifi
