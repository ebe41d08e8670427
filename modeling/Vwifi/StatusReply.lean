import Vwifi.ListReply

/-!
# The reply to STATUS

`SendStatus` leaves the VHOST port out when VHOST is disabled, and `AskStatus`
reads it in every build. So the reply is read back when VHOST is enabled, each
field arriving whole.
-/

namespace Vwifi

set_option autoImplicit false

open LittleEndian Segmented

theorem arriveWhole_flatten {fields segments : List (List UInt8)}
    (h : ArriveWhole fields segments) :
    fields.flatten = segments.flatten := by
  induction fields generalizing segments with
  | nil =>
    rw [show segments = [] from h]
  | cons field fields ih =>
    obtain ⟨hfield, hrest⟩ := h
    rw [← deliver_flatten field.length segments, hfield, List.flatten_cons, ih hrest]

namespace AskedStatus

variable {a a' : AskedStatus} {v w : Var} {bytes : List UInt8} {rest : List (List UInt8)}

theorem uninitialised_length (stack : StatusStack) (l : StatusLocal) (size : Nat) :
    (uninitialised stack l size).bytes.length = size := by
  rw [uninitialised, List.length_map, List.length_range]

/-- The state after a `Read` that was asked for `asked` bytes and brought `got`. -/
def after (a : AskedStatus) (rest : List (List UInt8)) (asked got : Nat) : AskedStatus :=
  { a with inbox := rest, reads := a.reads ++ [(asked, got)] }

theorem read_after {o : Option Var} (h : a.read v = (o, a')) :
    a' = a.after (deliver v.bytes.length a.inbox).2 v.bytes.length
      (deliver v.bytes.length a.inbox).1.length := by
  obtain ⟨_, rfl⟩ := Prod.mk.inj h
  rfl

theorem read_length (h : a.read v = (some w, a')) : w.bytes.length = v.bytes.length := by
  have hle := deliver_length_le v.bytes.length a.inbox
  obtain ⟨hsome, _⟩ := Prod.mk.inj h
  split at hsome
  · cases hsome
  · cases hsome
    rw [List.length_append, List.length_drop]
    omega

theorem read_whole {n : Nat} (hv : v.bytes.length = n) (hn : bytes.length = n) (hpos : 0 < n)
    (h : (deliver n a.inbox).1 = bytes) :
    a.read v = (some ⟨bytes, n⟩, a.after (deliver n a.inbox).2 n n) := by
  subst hn
  have hne : bytes ≠ [] := List.ne_nil_of_length_pos hpos
  have hdrop : v.bytes.drop bytes.length = [] := List.drop_of_length_le (Nat.le_of_eq hv)
  rw [read, hv, h]
  simp only [if_neg hne, hdrop, List.append_nil]
  rfl

end AskedStatus

open AskedStatus

/-- What `AskStatus` makes of the six fields it expects, when each arrives whole. -/
theorem askStatus_whole (stack : StatusStack) {loss scale vhost inet size spy : List UInt8}
    {segments : List (List UInt8)}
    (hlen : [loss, scale, vhost, inet, size, spy].map List.length = [1, 8, 2, 2, 4, 1])
    (h : ArriveWhole [loss, scale, vhost, inet, size, spy] segments) :
    askStatus stack segments =
      ⟨[], [(1, 1), (8, 8), (2, 2), (2, 2), (4, 4), (1, 1)], ⟨inet, 2⟩, some (boolOf ⟨loss, 1⟩),
        some (UInt64.ofNat (value scale)), some (portOf ⟨vhost, 2⟩), some (portOf ⟨inet, 2⟩),
        some (value size), some (boolOf ⟨spy, 1⟩), 0⟩ := by
  simp only [List.map_cons, List.map_nil, List.cons.injEq, and_true] at hlen
  obtain ⟨h₁, h₂, h₃, h₄, h₅, h₆⟩ := hlen
  simp only [ArriveWhole, h₁, h₂, h₃, h₄, h₅, h₆] at h
  obtain ⟨hloss, hscale, hvhost, hinet, hsize, hspy, hend⟩ := h
  rw [askStatus, read_whole (uninitialised_length stack .loss 1) h₁ (by decide) hloss]
  dsimp only [after, start]
  rw [read_whole (uninitialised_length stack .scale 8) h₂ (by decide) hscale]
  dsimp only [after, start]
  rw [read_whole (uninitialised_length stack .port 2) h₃ (by decide) hvhost]
  dsimp only [after, start]
  rw [read_whole h₃ h₄ (by decide) hinet]
  dsimp only [after, start]
  rw [read_whole (uninitialised_length stack .size 4) h₅ (by decide) hsize]
  dsimp only [after, start]
  rw [read_whole (uninitialised_length stack .spyIsConnected 1) h₆ (by decide) hspy]
  dsimp only [after]
  rw [hend]
  rfl

/-- An `AskStatus` under way: it has asked for `sizes`, and if each `Read` brought
what it was asked for, fields of these sizes have arrived whole. -/
structure AskedStatus.Asking (segments : List (List UInt8)) (sizes : List Nat) (a : AskedStatus) :
    Prop where
  err : a.err = 1
  port : a.port.bytes.length = 2
  fields : (∀ r ∈ a.reads, r.1 = r.2) → ∃ fields : List (List UInt8),
    fields.map List.length = sizes ∧
      ∀ more, ArriveWhole more a.inbox → ArriveWhole (fields ++ more) segments

namespace AskedStatus.Asking

variable {segments : List (List UInt8)} {sizes : List Nat} {a b a' : AskedStatus}

theorem read {v : Var} {o : Option Var} {n : Nat} (h : a.Asking segments sizes)
    (hread : b.read v = (o, a')) (hv : v.bytes.length = n) (hport : b.port.bytes.length = 2)
    (hsame : (b.inbox, b.reads, b.err) = (a.inbox, a.reads, a.err)) :
    a'.Asking segments (sizes ++ [n]) := by
  simp only [Prod.mk.injEq] at hsame
  obtain ⟨hinbox, hreads, herr⟩ := hsame
  rw [read_after hread, hv]
  refine ⟨herr.trans h.err, hport, fun hwhole => ?_⟩
  obtain ⟨fields, hsizes, harrive⟩ := h.fields fun r hr =>
    hwhole r (List.mem_append_left _ (hreads ▸ hr))
  have hlen : n = (deliver n b.inbox).1.length :=
    hwhole _ (List.mem_append_right _ List.mem_cons_self)
  refine ⟨fields ++ [(deliver n b.inbox).1], ?_, fun more hmore => ?_⟩
  · rw [List.map_append, hsizes, List.map_singleton, ← hlen]
  · rw [List.append_assoc, List.singleton_append]
    apply harrive
    rw [ArriveWhole, ← hlen, ← hinbox]
    exact ⟨rfl, hmore⟩

theorem not_ended (h : a.Asking segments sizes) : a.err ≠ 0 := by
  rw [h.err]
  decide

end AskedStatus.Asking

/-- The reads of an `AskStatus` that ends well, all of them whole. -/
theorem askStatus_arrives {stack : StatusStack} {segments : List (List UInt8)}
    (herr : (askStatus stack segments).err = 0) (hinbox : (askStatus stack segments).inbox = [])
    (hreads : ∀ r ∈ (askStatus stack segments).reads, r.1 = r.2) :
    ∃ fields, ArriveWhole fields segments ∧ fields.map List.length = [1, 8, 2, 2, 4, 1] := by
  have hport₀ : (start stack segments).port.bytes.length = 2 := uninitialised_length stack .port 2
  have hstart : (start stack segments).Asking segments [] :=
    ⟨rfl, hport₀, fun _ => ⟨[], rfl, fun _ h => h⟩⟩
  generalize hasked : askStatus stack segments = asked at herr hinbox hreads
  unfold askStatus at hasked
  split at hasked <;> rename_i heq₁ <;>
    have h₁ := hstart.read heq₁ (uninitialised_length stack .loss 1) hport₀ rfl
  · exact absurd (hasked ▸ herr) h₁.not_ended
  dsimp only at hasked
  split at hasked <;> rename_i heq₂ <;>
    have h₂ := h₁.read heq₂ (uninitialised_length stack .scale 8) h₁.port rfl
  · exact absurd (hasked ▸ herr) h₂.not_ended
  split at hasked <;> rename_i heq₃ <;> have h₃ := h₂.read heq₃ h₂.port h₂.port rfl
  · exact absurd (hasked ▸ herr) h₃.not_ended
  have hport := (read_length heq₃).trans h₂.port
  split at hasked <;> rename_i heq₄ <;> have h₄ := h₃.read heq₄ hport hport rfl
  · exact absurd (hasked ▸ herr) h₄.not_ended
  have hport' := (read_length heq₄).trans hport
  split at hasked <;> rename_i heq₅ <;>
    have h₅ := h₄.read heq₅ (uninitialised_length stack .size 4) hport' rfl
  · exact absurd (hasked ▸ herr) h₅.not_ended
  split at hasked <;> rename_i heq₆ <;>
    have h₆ := h₅.read heq₆ (uninitialised_length stack .spyIsConnected 1) h₅.port rfl
  · exact absurd (hasked ▸ herr) h₆.not_ended
  subst hasked
  obtain ⟨fields, hsizes, harrive⟩ := h₆.fields hreads
  refine ⟨fields, ?_, hsizes⟩
  rw [← List.append_nil fields]
  exact harrive [] hinbox

/-! ## What is sent -/

/-- What the calls of `send` on `d` have handed over, call by call. -/
def sends (d : TDescriptor) (acts : List Act) : List (List UInt8) :=
  acts.filterMap fun
    | .send d' data taken => if d' = d then some (data.take taken) else none
    | _ => none

/-- `AskStatus` has read the reply to its end, each `Read` bringing what it asked
for, and has displayed what the server holds. -/
structure AskedStatus.Shows (asked : AskedStatus) (s : Server) : Prop where
  loss : asked.loss = some s.globals.canLostPackets
  scale : asked.scale = some s.globals.scale
  portVHOST : ∀ vtcp, s.vtcp = some vtcp → asked.portVHOST = some vtcp.port
  portINET : asked.portINET = some s.itcp.port
  sizeOfDisconnected : asked.sizeOfDisconnected = some s.wifiServer.maxClientDeconnected
  spyIsConnected : asked.spyIsConnected = some s.spyIsConnected
  err : asked.err = 0
  inbox : asked.inbox = []
  reads : ∀ r ∈ asked.reads, r.1 = r.2

namespace Server

def statusFields (s : Server) : List (List UInt8) :=
  [boolByte s.globals.canLostPackets, image 8 s.globals.scale.toNat] ++
    (match s.vtcp with
      | some vtcp => [image 2 vtcp.port.toNat]
      | none => []) ++
    [image 2 s.itcp.port.toNat, image 4 s.wifiServer.maxClientDeconnected,
      boolByte s.spyIsConnected]

theorem statusFields_lengths (s : Server) :
    s.statusFields.map List.length =
      if s.vtcp.isSome then [1, 8, 2, 2, 4, 1] else [1, 8, 2, 4, 1] := by
  unfold statusFields
  cases s.vtcp <;> rfl

theorem boolOf_boolByte (b : Bool) : boolOf ⟨boolByte b, 1⟩ = b := by
  cases b <;> decide

theorem portOf_image (port : TPort) : portOf ⟨image 2 port.toNat, 2⟩ = port := by
  have hlt : port.toNat < 256 ^ 2 := port.toNat_lt
  rw [portOf, Var.toNat, value_image_of_lt hlt, UInt16.ofNat_toNat]

/-- The reply of a server with VHOST, when it arrives field by field. -/
theorem shows_of_arriveWhole {s : Server} (hmax : s.wifiServer.maxClientDeconnected < 2 ^ 32)
    (hvhost : s.vtcp.isSome = true) {segments : List (List UInt8)}
    (h : ArriveWhole s.statusFields segments) (stack : StatusStack) :
    (askStatus stack segments).Shows s := by
  obtain ⟨vtcp, hvtcp⟩ := Option.isSome_iff_exists.mp hvhost
  have hlen := s.statusFields_lengths
  rw [if_pos hvhost] at hlen
  simp only [statusFields, hvtcp] at h hlen
  have hscale : s.globals.scale.toNat < 256 ^ 8 := s.globals.scale.toNat_lt
  have hmax' : s.wifiServer.maxClientDeconnected < 256 ^ 4 := hmax
  rw [askStatus_whole stack hlen h]
  have hreads : ∀ r ∈ [(1, 1), (8, 8), (2, 2), (2, 2), (4, 4), (1, 1)], r.1 = r.2 := by
    decide
  refine ⟨congrArg some (boolOf_boolByte _), ?_, ?_, congrArg some (portOf_image _),
    congrArg some (value_image_of_lt hmax'), congrArg some (boolOf_boolByte _), rfl, rfl, hreads⟩
  · exact congrArg some (by rw [value_image_of_lt hscale, UInt64.ofNat_toNat])
  · intro vtcp' hvtcp'
    rw [hvtcp, Option.some.injEq] at hvtcp'
    rw [← hvtcp', portOf_image]

/-- The reply is shown when VHOST is enabled and no field is cut, and only then. -/
theorem shows_iff {s : Server} (hmax : s.wifiServer.maxClientDeconnected < 2 ^ 32)
    {segments : List (List UInt8)} (hflatten : segments.flatten = s.statusFields.flatten)
    (stack : StatusStack) :
    (askStatus stack segments).Shows s ↔
      s.vtcp.isSome = true ∧ ArriveWhole s.statusFields segments := by
  constructor
  · intro h
    obtain ⟨fields, harrive, hlen⟩ := askStatus_arrives h.err h.inbox h.reads
    have hsame : fields.flatten = s.statusFields.flatten :=
      (arriveWhole_flatten harrive).trans hflatten
    have hlen' := s.statusFields_lengths
    by_cases hvhost : s.vtcp.isSome = true
    · rw [if_pos hvhost] at hlen'
      have hfields : fields = s.statusFields :=
        List.eq_iff_flatten_eq.mpr ⟨hsame, hlen.trans hlen'.symm⟩
      exact ⟨hvhost, hfields ▸ harrive⟩
    · -- eighteen bytes are read, and sixteen are sent
      rw [if_neg hvhost] at hlen'
      have hcount := congrArg List.length hsame
      rw [List.length_flatten, List.length_flatten, hlen, hlen'] at hcount
      exact absurd hcount (by decide)
  · rintro ⟨hvhost, harrive⟩
    exact shows_of_arriveWhole hmax hvhost harrive stack

theorem status_answers (s : Server) : s.Answers .torderStatus s.statusFields := by
  intro medium stack d room k
  exact congrArg some (sendFields_eq d s.statusFields _)

theorem sends_answerActs (d : TDescriptor) (fields : List (List UInt8)) :
    sends d (answerActs d fields) = fields := by
  have hfields : sends d (wholeSends d fields) = fields := by
    induction fields with
    | nil => rfl
    | cons field rest ih =>
      have hcons : sends d (wholeSends d (field :: rest)) =
          field.take field.length :: sends d (wholeSends d rest) := by
        simp [sends, wholeSends]
      rw [hcons, ih, List.take_length]
  have hstart : sends d [.accept d, .recv d 4 4, .use 4 4] = [] := rfl
  have hend : sends d [.close d] = [] := rfl
  rw [sends] at hfields hstart hend ⊢
  rw [answerActs, List.filterMap_append, List.filterMap_append, hfields, hstart, hend,
    List.nil_append, List.append_nil]

/-- Whatever segments bring the answer of a STATUS order that was sent whole,
`AskStatus` shows the state of the server exactly when VHOST is enabled and no
segment ends within a field. -/
theorem status_exact_iff {s s' : Server} {medium : Medium} {stack : Stack} {d : TDescriptor}
    {room : List Nat} (hctrl : s.ctrlSockets = [])
    (hmax : s.wifiServer.maxClientDeconnected < 2 ^ 32)
    (heq : s.receiveOrder medium stack ⟨d, [askStatusOrder], room⟩ = some s')
    (hwhole : ∀ a ∈ s'.kernel.log.drop s.kernel.log.length, a.isWhole = true)
    (askStack : StatusStack) {segments : List (List UInt8)}
    (harrive : segments.flatten = sentOn d s'.kernel.log) :
    (askStatus askStack segments).Shows s ↔
      s.vtcp.isSome = true ∧
        ArriveWhole (sends d (s'.kernel.log.drop s.kernel.log.length)) segments := by
  have hlog := receiveOrder_whole s.status_answers hctrl heq hwhole
  rw [hlog, sentOn_reply] at harrive
  rw [hlog, List.drop_left, sends_answerActs]
  exact shows_iff hmax harrive askStack

/-- A server with VHOST, at its start. -/
def vhost : Server :=
  Server.init { Setup.tcp with vtcp := some ⟨6, 8211⟩, distinct := by decide }

theorem status_exact_iff_vhost :
    ∃ s', vhost.receiveOrder Medium.uniform (fun _ _ => 0)
        ⟨10, [askStatusOrder], [1, 8, 2, 2, 4, 1]⟩ = some s' ∧
      (askStatus (fun _ _ => 0) [sentOn 10 s'.kernel.log]).Shows vhost := by
  obtain ⟨s', heq, hlog⟩ := receiveOrder_room vhost.status_answers rfl Medium.uniform
    (fun _ _ => 0) 10
  refine ⟨s', heq, ?_⟩
  have hwhole : ∀ a ∈ s'.kernel.log.drop vhost.kernel.log.length, a.isWhole = true := by
    rw [hlog, List.drop_left]
    exact answerActs_whole 10 _
  refine (status_exact_iff rfl (by decide) heq hwhole (fun _ _ => 0) (by simp)).mpr ⟨rfl, ?_⟩
  rw [hlog, List.drop_left, sends_answerActs, sentOn_reply]
  decide +kernel

/-- Without VHOST the port of the TCP server is shown as that of VHOST, and the
bytes run out, however they arrive. -/
theorem status_exact_fails :
    ¬ ∀ (s s' : Server) (medium : Medium) (stack : Stack) (askStack : StatusStack) (d : TDescriptor)
      (room : List Nat) (segments : List (List UInt8)),
      s.ctrlSockets = [] → s.wifiServer.maxClientDeconnected < 2 ^ 32 →
      s.receiveOrder medium stack ⟨d, [askStatusOrder], room⟩ = some s' →
      (∀ a ∈ s'.kernel.log.drop s.kernel.log.length, a.isWhole = true) →
      ArriveWhole (sends d (s'.kernel.log.drop s.kernel.log.length)) segments →
        (askStatus askStack segments).Shows s := by
  intro h
  obtain ⟨s', heq, hlog⟩ := receiveOrder_room (Server.init Setup.tcp).status_answers rfl
    Medium.uniform (fun _ _ => 0) 10
  have hwhole : ∀ a ∈ s'.kernel.log.drop (Server.init Setup.tcp).kernel.log.length,
      a.isWhole = true := by
    rw [hlog, List.drop_left]
    exact answerActs_whole 10 _
  have hshows := h (Server.init Setup.tcp) s' Medium.uniform (fun _ _ => 0) (fun _ _ => 0) 10 _
    [(Server.init Setup.tcp).statusFields.flatten] rfl (by decide) heq hwhole (by
      rw [hlog, List.drop_left, sends_answerActs]
      decide +kernel)
  have hfailed : (askStatus (fun _ _ => 0)
      [(Server.init Setup.tcp).statusFields.flatten]).err = 1 := by
    decide +kernel
  rw [hshows.err] at hfailed
  cases hfailed

end Server

end Vwifi
