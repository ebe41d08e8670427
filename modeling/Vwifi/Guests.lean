import Vwifi.FrameStream
import Vwifi.HubRuns

/-!
# From one guest to another

The server does not look into what it forwards. Where all its peers are guests, whose
clients send signals with frames, every signal it reads is one that a guest has sent,
and a guest hands to its radios what the others sent.
-/

namespace Vwifi

set_option autoImplicit false

open Broadcast

variable {libnl : Libnl}

/-- A signal as its sender transmitted it. -/
def Carried.signal (x : Carried libnl) : Signal := ⟨x.level, x.message⟩

/-- The message of the signal carries a frame. -/
def Signal.Meant (libnl : Libnl) (n : Signal) : Prop :=
  ∃ data freq, CarriesFrame libnl n.data data freq

/-- What the client of a guest sends over a connection, which may end in the middle of
a signal. -/
def GuestStream (libnl : Libnl) (bytes : List UInt8) : Prop :=
  ∃ sent : List (Carried libnl), bytes <+: sent.flatMap Carried.bytes

/-! ## What the server reads of it -/

section Reading

variable {x : Carried libnl} {taken more rest : List UInt8} {n : Signal}

/-- One call takes the signal at the head of the stream. -/
theorem readFrom_carried (hread : Signal.ReadFrom taken n)
    (h : taken ++ more <+: x.bytes ++ rest) : taken = x.bytes ∧ n = x.signal := by
  obtain ⟨tail, rfl, hlength, hpositive, _, hdata⟩ := hread
  have hlong := x.carries.complete
  rw [Carried.bytes, List.cons_append, List.cons_append, List.cons_prefix_cons] at h
  obtain ⟨hpower, t, h⟩ := h
  rw [List.append_assoc] at h
  have htail : 4 ≤ tail.length := by
    rw [hlength, sizeofNlmsghdr]
    omega
  rw [sizeofNlmsghdr] at hlong
  have hfour : tail.take 4 = x.message.take 4 := by
    have htake := congrArg (List.take 4) h
    rwa [List.take_append_of_le_length htail,
      List.take_append_of_le_length (by omega : 4 ≤ x.message.length)] at htake
  have hheader : CWifi.nlmsgLen tail = x.message.length := by
    rw [CWifi.nlmsgLen_congr hfour]
    exact (x.carries.framed x.level).header
  rw [hheader, Int.toNat_natCast, sizeofNlmsghdr, Nat.max_eq_right (by omega)] at hlength
  obtain ⟨hsame, _⟩ := List.append_inj h hlength
  subst hsame
  rw [hheader, Int.toNat_natCast, List.take_length] at hdata
  refine ⟨by rw [Carried.bytes, hpower], ?_⟩
  have hlevel := congrArg UInt8.toInt8 hpower
  rw [Int8.toInt8_toUInt8, Int8.toInt8_toUInt8] at hlevel
  rw [Carried.signal, ← hlevel, ← hdata]

theorem not_readFrom_nil : ¬ Signal.ReadFrom [] n := by
  rintro ⟨_, htaken, _⟩
  cases htaken

/-- What is read of the stream of a guest are the first signals that it sent. -/
theorem readFrom_initial {takens : List (List UInt8)} {said : List Signal}
    {sent : List (Carried libnl)} (hread : List.Forall₂ Signal.ReadFrom takens said)
    (h : takens.flatten ++ more <+: sent.flatMap Carried.bytes) :
    said <+: sent.map Carried.signal := by
  induction hread generalizing sent with
  | nil => exact List.nil_prefix
  | cons hhead _ ih =>
    rw [List.flatten_cons, List.append_assoc] at h
    cases sent with
    | nil =>
      have hnil := List.prefix_nil.mp h
      rw [List.append_eq_nil_iff.mp hnil |>.1] at hhead
      exact absurd hhead not_readFrom_nil
    | cons x sent =>
      rw [List.flatMap_cons] at h
      obtain ⟨rfl, rfl⟩ := readFrom_carried hhead h
      rw [List.prefix_append_right_inj] at h
      rw [List.map_cons, List.cons_prefix_cons]
      exact ⟨rfl, ih h⟩

/-- Nothing else than frames is read of the stream of a guest. -/
theorem GuestStream.meant {bytes : List UInt8} (hstream : GuestStream libnl bytes)
    {takens : List (List UInt8)} {said : List Signal}
    (hread : List.Forall₂ Signal.ReadFrom takens said) (h : bytes = takens.flatten ++ more) :
    ∀ n ∈ said, n.Meant libnl := by
  obtain ⟨sent, hsent⟩ := hstream
  subst h
  intro n hn
  obtain ⟨x, _, rfl⟩ := List.mem_map.mp ((readFrom_initial hread hsent).subset hn)
  exact ⟨x.data, x.freq, x.carries⟩

end Reading

/-! ## The server among guests -/

namespace Config

variable {medium : Medium} {setup : Setup} {c c' : Config} {l : Label} {v v' : Bool → Registry}
  {h : History}

/-- Who joins in the step is a guest. -/
def JoinedByGuest (libnl : Libnl) (medium : Medium) (c : Config) (l : Label) : Prop :=
  ∀ d bytes, .joined d bytes ∈ c.events medium l → GuestStream libnl bytes

theorem transmission_said {s : Server} {srcIsSpy : Bool} {i : TIndex} {d : TDescriptor}
    {n : Signal} {audience : List (TDescriptor × Hearing)} (hv : s.Views v)
    (h : .said d n audience ∈ transmission medium s srcIsSpy i) :
    LiveOf v d ∧ ∃ taken rest, s.kernel.supply d = taken ++ rest ∧ n.ReadFrom taken := by
  unfold transmission at h
  split at h
  · cases h
  · rename_i e he
    dsimp only at h
    split at h
    · rename_i hread
      cases List.mem_singleton.mp h
      have hmem := List.mem_of_getElem? he
      rw [hv srcIsSpy, Registry.server_entries] at hmem
      obtain ⟨taken, hsupply, htaken⟩ := received_readFrom hread.2.2
      exact ⟨liveOf_of_entries ⟨e, hmem, hread.1, rfl⟩, taken, _, hsupply, htaken⟩
    · cases h

/-- What is said in a step is read from the connection of an enabled entry. -/
theorem events_said {d : TDescriptor} {n : Signal} {audience : List (TDescriptor × Hearing)}
    (hv : c.Sees v) (h : .said d n audience ∈ c.events medium l) :
    LiveOf v d ∧ ∃ taken rest, c.server.kernel.supply d = taken ++ rest ∧ n.ReadFrom taken := by
  unfold events at h
  split at h
  · cases List.mem_singleton.mp h
  · cases List.mem_singleton.mp h
  · cases List.mem_singleton.mp h
  · exact transmission_said hv.views h
  · cases h

/-- Every signal of the history carries a frame, and so will those that are still on
their way to the server. -/
structure AmongGuests (libnl : Libnl) (h : History) : Prop where
  spoken : ∀ n ∈ spoken h, n.Meant libnl
  streams : ∀ d bytes, broughtBy d h = some bytes → GuestStream libnl bytes

theorem step_amongGuests (hg : AmongGuests libnl h) (hr : Records v c.server.kernel h)
    (hv : c.Sees v) (hcases : StepCases medium c l v c' v')
    (hjoins : JoinedByGuest libnl medium c l) : AmongGuests libnl (h ++ c.events medium l) := by
  have hadding := step_adding hv hcases
  have hsaid := @events_said medium c l v
  rw [JoinedByGuest] at hjoins
  generalize c.events medium l = added at hadding hsaid hjoins ⊢
  cases hadding with
  | nothing _ =>
    rw [List.append_nil]
    exact hg
  | joined d' written _ =>
    constructor
    · rw [spoken_append]
      intro n hn
      rcases List.mem_append.mp hn with hn | hn
      · exact hg.spoken n hn
      · cases hn
    · intro d bytes hbrought
      rw [broughtBy_joined] at hbrought
      split at hbrought
      · cases hbrought
        exact hjoins d' written (List.mem_singleton_self _)
      · exact hg.streams d bytes hbrought
  | said srcIsSpy before after e n _ _ =>
    constructor
    · rw [spoken_append]
      intro n' hn
      rcases List.mem_append.mp hn with hn | hn
      · exact hg.spoken n' hn
      · rw [List.mem_singleton.mp hn]
        obtain ⟨hlive, taken, rest, hsupply, hread⟩ := hsaid hv (List.mem_singleton_self _)
        obtain ⟨written, takens, hbrought, hwritten, hreads⟩ := (hr.follows _ hlive).said
        rw [hsupply] at hwritten
        have hmore : written = (takens ++ [taken]).flatten ++ rest := by
          rw [hwritten, List.flatten_append, List.flatten_singleton, List.append_assoc]
        exact (hg.streams _ _ hbrought).meant (List.rel_append hreads (.cons hread .nil)) hmore n
          (List.mem_append_right _ (List.mem_singleton_self _))
    · intro d bytes hbrought
      rw [broughtBy_said] at hbrought
      exact hg.streams d bytes hbrought

theorem run_amongGuests {ls : List Label}
    (hrun : Lts.run (step medium) (init setup) ls = some c)
    (hjoins : Lts.Steps (step medium) (JoinedByGuest libnl medium) (init setup) ls) :
    AmongGuests libnl (history medium setup ls) := by
  have hnone : ∀ d, ¬ LiveOf initialView d := fun d =>
    not_or.mpr ⟨not_liveIn_initialView false d, not_liveIn_initialView true d⟩
  obtain ⟨_, _, _, hg⟩ := @history_invariant medium setup ls c (JoinedByGuest libnl medium)
    (fun v k h => Records v k h ∧ AmongGuests libnl h)
    (fun c l c' v v' h hi hq hv hl hstep hcases =>
      ⟨step_records hi.1 hl hv hstep hcases, step_amongGuests hi.2 hi.1 hv hcases hq⟩)
    ⟨⟨fun d hd => absurd hd (hnone d), fun e he => absurd he List.not_mem_nil⟩,
      ⟨fun n hn => absurd hn List.not_mem_nil, fun d bytes hd => nomatch hd⟩⟩ hjoins hrun
  exact hg

end Config

/-! ## Guests that listen and guests that speak -/

/-- The frame of the signal is injected into all radios, as it was heard. -/
def HeardAs (libnl : Libnl) (x : Signal × Hearing) (i : Injection) : Prop :=
  ∃ data freq, CarriesFrame libnl x.1.data data freq ∧ i.calls =
    Hwsim.clones i.familyId data CKernelWifi.rateIdx x.2.level.toInt freq i.radios i.oks

/-- The frame of the signal reaches all radios, as it was heard. -/
def ReachesAs (libnl : Libnl) (x : Signal × Hearing) (i : Injection) : Prop :=
  ∃ data freq, CarriesFrame libnl x.1.data data freq ∧ i.calls = i.radios.map fun dst =>
    ⟨.clonedFrame dst data CKernelWifi.rateIdx x.2.level.toInt freq, true⟩

theorem HeardAs.reaches {x : Signal × Hearing} {i : Injection} (h : HeardAs libnl x i)
    (haccepted : i.Accepted) : ReachesAs libnl x i := by
  obtain ⟨data, freq, hcarries, hcalls⟩ := h
  exact ⟨data, freq, hcarries, hcalls.trans (Hwsim.clones_sent haccepted.1 i.radios haccepted.2)⟩

/-- A signal as a recipient gets it. -/
def heardSignal (x : Signal × Hearing) : Signal := ⟨x.2.level, x.1.data⟩

section Hearing

variable {got : List (Signal × Hearing)} {signals : List (Carried libnl)}

/-- The frames in what a recipient gets. -/
theorem carried_of_heard (h : ∀ x ∈ got, x.1.Meant libnl) :
    ∃ signals : List (Carried libnl), got.map heardSignal = signals.map Carried.signal := by
  induction got with
  | nil => exact ⟨[], rfl⟩
  | cons x got ih =>
    obtain ⟨data, freq, hcarries⟩ := h x List.mem_cons_self
    obtain ⟨signals, hsame⟩ := ih fun y hy => h y (List.mem_cons_of_mem x hy)
    exact ⟨⟨x.2.level, x.1.data, data, freq, hcarries⟩ :: signals, congrArg (_ :: ·) hsame⟩

theorem heardBytes_of_carried (h : got.map heardSignal = signals.map Carried.signal) :
    got.flatMap heardBytes = signals.flatMap Carried.bytes := by
  calc got.flatMap heardBytes = (got.map heardSignal).flatMap Signal.bytes :=
        (List.flatMap_map heardSignal Signal.bytes got).symm
    _ = (signals.map Carried.signal).flatMap Signal.bytes := by rw [h]
    _ = signals.flatMap Carried.bytes := List.flatMap_map Carried.signal Signal.bytes signals

theorem heardAs_of_injected {is : List Injection}
    (h : got.map heardSignal = signals.map Carried.signal)
    (hinjected : List.Forall₂ Carried.InjectedBy signals is) :
    List.Forall₂ (HeardAs libnl) got is := by
  induction hinjected generalizing got with
  | nil =>
    rw [List.map_eq_nil_iff.mp h]
    exact .nil
  | @cons y i _ _ hhead _ ih =>
    obtain ⟨x, got, rfl, hx, hrest⟩ := List.map_eq_cons_iff.mp h
    refine .cons ?_ (ih hrest)
    obtain ⟨hlevel, hmessage⟩ := Signal.mk.inj hx
    refine ⟨y.data, y.freq, hmessage ▸ y.carries, ?_⟩
    have hcalls : i.calls = _ := hhead
    rw [hcalls, hlevel]

theorem reachesAs_of_accepted {is : List Injection} (h : List.Forall₂ (HeardAs libnl) got is)
    (haccepted : ∀ i ∈ is, i.Accepted) : List.Forall₂ (ReachesAs libnl) got is := by
  induction h with
  | nil => exact .nil
  | cons hhead _ ih =>
    exact .cons (hhead.reaches (haccepted _ List.mem_cons_self))
      (ih fun i hi => haccepted i (List.mem_cons_of_mem _ hi))

end Hearing

section Ends

variable {medium : Medium} {setup : Setup} {ls : List Label} {s : Config} {d : TDescriptor}
  {heap : Nat → UInt8} {driver : Int} {before steps : List Client.Label} {c c' : Client}

/-- Among guests: whatever the order of the steps of the server and of the threads of a
guest that stays connected, it calls all its radios for the frames that the others sent,
in the order in which the server read them, each once and at the level that the server
has computed; missing are the frames that must be lost and some that may be. While the
driver is loaded and libnl sends, every frame that is taken reaches all radios. -/
theorem guest_hears (hserver : Lts.run (Config.step medium) (Config.init setup) ls = some s)
    (hguests : Lts.Steps (Config.step medium) (Config.JoinedByGuest libnl medium)
      (Config.init setup) ls) (hlive : s.Live d)
    (hreach : Lts.run (Client.step libnl) (Client.init heap driver) before = some c)
    (hwire : c.wifi.uplink.supply = sentOn d s.server.kernel.log)
    (hrun : Lts.run (Client.step libnl) c steps = some c')
    (hlasts : Lts.States (Client.step libnl) Client.Connected c steps) :
    (heardBy d (Config.history medium setup ls)).map Prod.fst =
        saidByOthers d (Config.history medium setup ls) ∧
      ∃ taken left, Thins MayMiss MustMiss (heardBy d (Config.history medium setup ls))
          (taken ++ left) ∧
        List.Forall₂ (HeardAs libnl) taken
          (Lts.outputs (Client.step libnl) (Client.injections libnl) c steps) ∧
        ((∀ i ∈ Lts.outputs (Client.step libnl) (Client.injections libnl) c steps, i.Accepted) →
          List.Forall₂ (ReachesAs libnl) taken
            (Lts.outputs (Client.step libnl) (Client.injections libnl) c steps)) ∧
        c'.wifi.uplink.supply = left.flatMap heardBytes := by
  have haccounts := Config.run_accounts hserver
  have hamong := Config.run_amongGuests hserver hguests
  obtain ⟨got, hthins, hsent⟩ := (haccounts.follows d hlive).heard
  refine ⟨haccounts.complete d hlive, ?_⟩
  have hmeant : ∀ x ∈ got, x.1.Meant libnl := by
    intro x hx
    apply hamong.spoken
    apply (saidByOthers_sublist d _).subset
    rw [← haccounts.complete d hlive]
    exact List.mem_map_of_mem (hthins.sublist.subset hx)
  obtain ⟨signals, hsame⟩ := carried_of_heard hmeant
  rw [hsent, heardBytes_of_carried hsame] at hwire
  obtain ⟨taken, left, rfl, htaken, hleft⟩ :=
    Client.run_injections (Client.reached_linked hreach) hrun hlasts hwire
  rw [List.map_append] at hsame
  obtain ⟨heard, missing, rfl, hheard, hmissing⟩ := List.map_eq_append_iff.mp hsame
  have hinjected := heardAs_of_injected hheard htaken
  refine ⟨heard, missing, hthins, hinjected, reachesAs_of_accepted hinjected, ?_⟩
  rw [hleft, heardBytes_of_carried hmissing]

/-- Who joins brings what arrives on the connection. -/
theorem Config.joined_incoming {c : Config} {l : Label} {bytes : List UInt8}
    (h : .joined d bytes ∈ c.events medium l) :
    ∃ inc, ((∃ cid, l = .connectVm inc cid) ∨ ∃ addr, l = .connectIn inc addr) ∧
      bytes = Segmented.supply inc.inbox := by
  unfold events at h
  split at h
  · cases List.mem_singleton.mp h
    exact ⟨_, .inl ⟨_, rfl⟩, rfl⟩
  · cases List.mem_singleton.mp h
    exact ⟨_, .inr ⟨_, rfl⟩, rfl⟩
  · cases List.mem_singleton.mp h
    exact ⟨_, .inr ⟨_, rfl⟩, rfl⟩
  · unfold transmission at h
    split at h
    · cases h
    · dsimp only at h
      split at h
      · cases List.mem_singleton.mp h
      · cases h
  · cases h

/-- The same frame, at a level at which packets can be lost. -/
def Client.weakSignal : Carried Libnl.walk := { Client.shortSignal with level := -60 }

/-- Two guests join, and the first one sends a weak signal and a strong one. -/
def Label.guests : List Label :=
  Label.joins ⟨10, [Client.weakSignal.bytes, Client.shortSignal.bytes], []⟩ ⟨0x020010AC, 0⟩ 3 ++
    Label.joins ⟨12, [], [100, 100]⟩ ⟨0x030010AC, 0⟩ 4 ++ Label.speaks 10 4 ++ Label.speaks 10 4

/-- A connection that brings nothing or the two signals. -/
def Label.brings : Label → Bool
  | .connectVm inc _ | .connectIn inc _ =>
    inc.inbox == [] || inc.inbox == [Client.weakSignal.bytes, Client.shortSignal.bytes]
  | _ => true

theorem Label.brings_guest {l : Label} (h : l.brings = true) (c : Config) :
    Config.JoinedByGuest Libnl.walk Medium.uniform c l := by
  intro d bytes hjoined
  obtain ⟨inc, hl, rfl⟩ := Config.joined_incoming hjoined
  have hinbox : inc.inbox = [] ∨
      inc.inbox = [Client.weakSignal.bytes, Client.shortSignal.bytes] := by
    rcases hl with ⟨cid, rfl⟩ | ⟨addr, rfl⟩
    · simpa [brings] using h
    · simpa [brings] using h
  refine ⟨[Client.weakSignal, Client.shortSignal], ?_⟩
  rcases hinbox with hinbox | hinbox
  · rw [hinbox]
    exact List.nil_prefix
  · rw [hinbox]
    exact List.prefix_rfl

/-- The weak signal is lost on its way to the other guest, and the strong one reaches the
radio of this guest. -/
theorem guest_hears_short : ∃ s c c',
    Lts.run (Config.step Medium.uniform) (Config.init Setup.lossy) Label.guests = some s ∧
      Lts.run (Client.step Libnl.walk) (Client.init (fun _ => 0) 30) Client.listens = some c ∧
      Lts.run (Client.step Libnl.walk) c (Client.waits ++ [Client.selects]) = some c' ∧
      ∃ taken left, Thins MayMiss MustMiss
          (heardBy 12 (Config.history Medium.uniform Setup.lossy Label.guests)) (taken ++ left) ∧
        List.Forall₂ (ReachesAs Libnl.walk) taken
          (Lts.outputs (Client.step Libnl.walk) (Client.injections Libnl.walk) c
            (Client.waits ++ [Client.selects])) ∧
        c'.wifi.uplink.supply = left.flatMap heardBytes := by
  have hserver : (Lts.run (Config.step Medium.uniform) (Config.init Setup.lossy)
      Label.guests).map (fun s =>
        (s.server.wifiServer.entries.any fun e => e.enabled && e.descriptor == 12,
          sentOn 12 s.server.kernel.log)) = some (true, Client.shortSignal.bytes) := by
    decide +kernel
  have hclient : (Lts.run (Client.step Libnl.walk) (Client.init (fun _ => 0) 30)
      Client.listens).map (fun c =>
        ((Lts.run (Client.step Libnl.walk) c (Client.waits ++ [Client.selects])).isSome,
          Lts.statesCheck (Client.step Libnl.walk) (fun c => decide (Client.Connected c)) c
            (Client.waits ++ [Client.selects]),
          (Lts.outputs (Client.step Libnl.walk) (Client.injections Libnl.walk) c
            (Client.waits ++ [Client.selects])).all (decide ·.Accepted),
          c.wifi.uplink.supply)) = some (true, true, true, Client.shortSignal.bytes) := by
    decide +kernel
  obtain ⟨s, hs, hvalues⟩ := Option.map_eq_some_iff.mp hserver
  obtain ⟨hlistener, hsent⟩ := Prod.mk.inj hvalues
  obtain ⟨c, hc, hvalues⟩ := Option.map_eq_some_iff.mp hclient
  simp only [Prod.mk.injEq, List.all_eq_true, decide_eq_true_eq] at hvalues
  obtain ⟨hsome, hstates, haccepted, hsupply⟩ := hvalues
  obtain ⟨c', hc'⟩ := Option.isSome_iff_exists.mp hsome
  have hbrings : ∀ l ∈ Label.guests, l.brings = true := by decide +kernel
  have hguests := (@Lts.steps_of_labels _ _ (Config.step Medium.uniform) _ _ hbrings
    (Config.init Setup.lossy)).mono (R := Config.JoinedByGuest Libnl.walk Medium.uniform)
      fun t _ h => Label.brings_guest h t
  obtain ⟨_, taken, left, hthins, _, hreaches, hleft⟩ := guest_hears hs hguests
    (liveIn_append.mpr (Or.inl (Config.liveIn_of_any hlistener))) hc (hsupply.trans hsent.symm) hc'
    (Lts.states_of_statesCheck (fun _ h => of_decide_eq_true h) hstates)
  exact ⟨s, c, c', hs, hc, hc', taken, left, hthins, hreaches haccepted, hleft⟩

/-- What the server reads from a guest are the first frames that were handed over to its
client, each with the power of its sender. -/
theorem guest_speaks (hseq : libnl.Sequential)
    (hserver : Lts.run (Config.step medium) (Config.init setup) ls = some s) (hlive : s.Live d)
    (hreach : Lts.run (Client.step libnl) (Client.init heap driver) before = some c)
    (hrun : Lts.run (Client.step libnl) c steps = some c')
    (hlasts : Lts.States (Client.step libnl) Client.Connected c steps)
    (hframes : Lts.Steps (Client.step libnl) (Client.HandsFrames libnl) c steps)
    {e : TDescriptor} (hmaster : c.wifi.uplink.master = some e)
    (hfresh : sentOn e c.wifi.uplink.kernel.log = [])
    (hwire : broughtBy d (Config.history medium setup ls) =
      some (sentOn e c'.wifi.uplink.kernel.log)) :
    ∃ sent : List (Carried libnl),
      List.Forall₂ Carried.Sends sent
        (Lts.outputs (Client.step libnl) (Client.handings libnl) c steps) ∧
      saidBy d (Config.history medium setup ls) <+: sent.map Carried.signal := by
  obtain ⟨sent, hsent, hlog⟩ :=
    Client.run_handings hseq (Client.reached_linked hreach) hrun hlasts hframes hmaster
  rw [hfresh, List.nil_append] at hlog
  obtain ⟨written, takens, hbrought, hwritten, hread⟩ :=
    ((Config.run_accounts hserver).follows d hlive).said
  cases hwire.symm.trans hbrought
  have hwhole : takens.flatten ++ s.server.kernel.supply d <+: sent.flatMap Carried.bytes :=
    ⟨[], by rw [List.append_nil, ← hwritten, hlog]⟩
  exact ⟨sent, hsent, readFrom_initial hread hwhole⟩

/-- What the client sends for the frame that is handed over to it. -/
def handedBytes : List UInt8 := 10 :: Patch.patch smallMessage.bytes 24 (List.replicate 6 7)

/-- A guest joins and sends this. -/
def Label.guest : List Label :=
  Label.joins ⟨10, [handedBytes], []⟩ ⟨0x020010AC, 0⟩ 3 ++ Label.speaks 10 3

theorem guest_speaks_small : ∃ s c c',
    Lts.run (Config.step Medium.uniform) (Config.init Setup.tcp) Label.guest = some s ∧
      Lts.run (Client.step Libnl.walk) (Client.init (fun _ => 0) 30)
        (Client.calmStart ⟨5, [], [1, 4096]⟩) = some c ∧
      Lts.run (Client.step Libnl.walk) c Client.handsOver = some c' ∧
      ∃ sent : List (Carried Libnl.walk),
        List.Forall₂ Carried.Sends sent
          (Lts.outputs (Client.step Libnl.walk) (Client.handings Libnl.walk) c
            Client.handsOver) ∧
        saidBy 10 (Config.history Medium.uniform Setup.tcp Label.guest) <+:
          sent.map Carried.signal := by
  have hserver : (Lts.run (Config.step Medium.uniform) (Config.init Setup.tcp)
      Label.guest).map (fun s =>
        (s.server.wifiServer.entries.any fun e => e.enabled && e.descriptor == 10)) =
          some true := by
    decide +kernel
  have hclient : (Lts.run (Client.step Libnl.walk) (Client.init (fun _ => 0) 30)
      (Client.calmStart ⟨5, [], [1, 4096]⟩)).map (fun c =>
        ((Lts.run (Client.step Libnl.walk) c Client.handsOver).map fun c' =>
            sentOn 5 c'.wifi.uplink.kernel.log,
          Lts.statesCheck (Client.step Libnl.walk) (fun c => decide (Client.Connected c)) c
            Client.handsOver,
          c.wifi.uplink.master, sentOn 5 c.wifi.uplink.kernel.log)) =
        some (some handedBytes, true, some 5, []) := by
    decide +kernel
  have hbrought : broughtBy 10 (Config.history Medium.uniform Setup.tcp Label.guest) =
      some handedBytes := by
    decide +kernel
  obtain ⟨s, hs, hlive⟩ := Option.map_eq_some_iff.mp hserver
  obtain ⟨c, hc, hvalues⟩ := Option.map_eq_some_iff.mp hclient
  simp only [Prod.mk.injEq] at hvalues
  obtain ⟨hruns, hstates, hmaster, hfresh⟩ := hvalues
  obtain ⟨c', hc', hsent⟩ := Option.map_eq_some_iff.mp hruns
  exact ⟨s, c, c', hs, hc, hc', guest_speaks Libnl.walk_sequential hs
    (liveIn_append.mpr (Or.inl (Config.liveIn_of_any hlive))) hc hc'
    (Lts.states_of_statesCheck (fun _ h => of_decide_eq_true h) hstates)
    (Client.handsOver_frames c) hmaster hfresh (by rw [hsent]; exact hbrought)⟩

end Ends

end Vwifi
