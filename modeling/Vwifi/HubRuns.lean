import Vwifi.Hub

/-!
# What the connections of a run are sent

Every frame the server reads reaches all other live connections, in one order;
only a frame from one client to another may be missing, while packets can be
lost. The history of the run says which frames these are.
-/

namespace Vwifi

set_option autoImplicit false

open Broadcast

/-- A spy joins, then a client, and the client speaks. -/
def Label.spied : List Label :=
  [.select (.ready (· = 4) 1), .skip, .skip, .connectIn ⟨11, [], [1, 16]⟩ ⟨0x030010AC, 0⟩, .skip] ++
    List.replicate 3 .skip ++
    Label.joins ⟨10, [236 :: 16 :: List.replicate 15 0], []⟩ ⟨0x020010AC, 0⟩ 4 ++ Label.speaks 10 4

/-- Two clients join, and the first one speaks twice: a weak frame and a strong one. -/
def Label.chats : List Label :=
  Label.joins ⟨10, [196 :: 16 :: List.replicate 15 0,
      226 :: 20 :: List.replicate 15 0 ++ [1, 2, 3, 4]],
      []⟩ ⟨0x020010AC, 0⟩ 3 ++
    Label.joins ⟨12, [], [20, 20, 20, 20]⟩ ⟨0x030010AC, 0⟩ 4 ++
    Label.speaks 10 4 ++ Label.speaks 10 4

/-- The first packet that can be lost is lost. -/
def Setup.lossy : Setup := { Setup.tcp with canLostPackets := true }

namespace Config

section Steps

variable {v v' : Bool → Registry} {h : History} {medium : Medium} {srcIsSpy : Bool}
  {before after : List Entry} {e : Entry} {c c' : Config} {l : Label}

/-- Every live connection could hear all that the others said, and a spy hears it at
the power of its sender, and misses nothing. -/
structure Covers (v : Bool → Registry) (h : History) : Prop where
  complete : ∀ d, LiveOf v d → (heardBy d h).map Prod.fst = saidByOthers d h
  spies : ∀ d, LiveIn (v true).entries d → ∀ x ∈ heardBy d h, x.2 = ⟨x.1.power, false⟩

theorem liveOf_of_entries {b : Bool} {d : TDescriptor} (hlive : LiveIn (v b).entries d) :
    LiveOf v d := by
  cases b
  · exact Or.inl hlive
  · exact Or.inr hlive

theorem mem_audience_of_live {level : Entry → TPower} {lossy : Bool} {es : List Entry}
    {d : TDescriptor} (hlive : LiveIn es d) : ∃ m, (d, m) ∈ audience level lossy es := by
  obtain ⟨e, he, henabled, rfl⟩ := hlive
  exact ⟨_, List.mem_map_of_mem (List.mem_filter.mpr ⟨he, henabled⟩)⟩

theorem Covers.said {n : Signal} (hc : Covers v h) (hl : ∀ d, holdersOf v d ≤ 1) {s : Server}
    (hentries : (v srcIsSpy).entries = before ++ e :: after)
    (hlive : ∀ b d, LiveIn (v' b).entries d → LiveIn (v b).entries d) :
    Covers v' (h ++ [.said e.descriptor n
      (audience (Pass.levelFrom medium srcIsSpy s.globals e n.power n.data)
          (Pass.mayLose srcIsSpy s.globals) (before ++ after) ++
        audience (fun _ => n.power) false (v !srcIsSpy).entries)]) := by
  have hheld := held_once hl hentries
  constructor
  · intro d hd
    have hd' : LiveOf v d := hd.imp (hlive false d) (hlive true d)
    have hone := hheld d
    rw [heardBy_said, saidByOthers_said, List.map_append, hc.complete d hd']
    by_cases hself : e.descriptor = d
    · rw [if_pos hself] at hone
      rw [if_pos hself, shares_eq_nil, List.map_nil, List.append_nil]
      intro x hx hxd
      rcases List.mem_append.mp hx with hx | hx
      · have := mem_audience hx
        rw [hxd] at this
        omega
      · have := mem_audience hx
        rw [hxd] at this
        omega
    · have hmem : ∃ m, (d, m) ∈
          audience (Pass.levelFrom medium srcIsSpy s.globals e n.power n.data)
              (Pass.mayLose srcIsSpy s.globals) (before ++ after) ++
            audience (fun _ => n.power) false (v !srcIsSpy).entries := by
        rw [liveOf_both v srcIsSpy, hentries, liveIn_middle] at hd'
        rcases hd' with (hself' | hsame) | hother
        · exact absurd hself'.2 hself
        · obtain ⟨m, hm⟩ := mem_audience_of_live hsame
          exact ⟨m, List.mem_append_left _ hm⟩
        · obtain ⟨m, hm⟩ := mem_audience_of_live hother
          exact ⟨m, List.mem_append_right _ hm⟩
      obtain ⟨m, hm⟩ := hmem
      rw [if_neg hself, map_fst_shares_of_mem (shares_recipients_length hl hentries d) hm]
  · intro d hd x hx
    rw [heardBy_said] at hx
    rcases List.mem_append.mp hx with hx | hx
    · exact hc.spies d (hlive true d hd) x hx
    · obtain ⟨signal, m⟩ := x
      obtain rfl : signal = n := fst_of_mem_shares hx
      rcases List.mem_append.mp (mem_shares.mp hx) with hm | hm
      · cases srcIsSpy with
        | true =>
          obtain ⟨a, _, ha⟩ := List.mem_map.mp hm
          exact (congrArg Prod.snd ha).symm
        | false =>
          -- the first part of the audience are clients
          obtain ⟨a, ha, _, had⟩ := hlive true d hd
          have hspy := holders_pos ha
          have hclient : 1 ≤ holders (before ++ after) d := mem_audience hm
          have hone := hheld d
          rw [had] at hspy
          rw [Bool.not_false] at hone
          omega
      · obtain ⟨a, _, ha⟩ := List.mem_map.mp hm
        exact (congrArg Prod.snd ha).symm

theorem step_covers (hc : Covers v h) (hl : Ledger v c.server.kernel.log) (hv : c.Sees v)
    (hcases : StepCases medium c l v c' v') : Covers v' (h ++ c.events medium l) := by
  have hadding := step_adding hv hcases
  generalize c.events medium l = added at hadding
  cases hadding with
  | nothing hlive =>
    rw [List.append_nil]
    exact ⟨fun d hd => hc.complete d (hd.imp (hlive false d) (hlive true d)),
      fun d hd => hc.spies d (hlive true d hd)⟩
  | joined d' written hlive =>
    constructor
    · intro d hd
      rw [heardBy_joined, saidByOthers_joined]
      by_cases hself : d' = d
      · rw [if_pos hself, if_pos hself, List.map_nil]
      · rw [if_neg hself, if_neg hself]
        have hold : ∀ b, LiveIn (v' b).entries d → LiveIn (v b).entries d :=
          fun b hb => (hlive b d hb).resolve_left hself
        exact hc.complete d (hd.imp (hold false) (hold true))
    · intro d hd x hx
      rw [heardBy_joined] at hx
      by_cases hself : d' = d
      · rw [if_pos hself] at hx
        cases hx
      · rw [if_neg hself] at hx
        exact hc.spies d ((hlive true d hd).resolve_left hself) x hx
  | said srcIsSpy before after e n hentries hlive =>
    exact hc.said (fun d => (hl d).2.trans (opens_le_one d _)) hentries hlive

/-- While no packets may be lost, nobody may miss a frame. -/
theorem step_sure (hsure : ∀ d, ∀ x ∈ heardBy d h, ¬ MayMiss x) (hv : c.Sees v)
    (hcases : StepCases medium c l v c' v') (hcan : c.server.globals.canLostPackets = false)
    (d : TDescriptor) : ∀ x ∈ heardBy d (h ++ c.events medium l), ¬ MayMiss x := by
  have hadding := step_adding hv hcases
  generalize c.events medium l = added at hadding
  intro x hx
  cases hadding with
  | nothing _ =>
    rw [List.append_nil] at hx
    exact hsure d x hx
  | joined d' written _ =>
    rw [heardBy_joined] at hx
    split at hx
    · cases hx
    · exact hsure d x hx
  | said srcIsSpy before after e n _ _ =>
    rw [heardBy_said] at hx
    rcases List.mem_append.mp hx with hx | hx
    · exact hsure d x hx
    · obtain ⟨signal, m⟩ := x
      obtain rfl : signal = n := fst_of_mem_shares hx
      have hnot : m.lossy = false := by
        rcases List.mem_append.mp (mem_shares.mp hx) with hm | hm
        · obtain ⟨a, _, ha⟩ := List.mem_map.mp hm
          obtain ⟨_, rfl⟩ := Prod.mk.inj ha
          rw [Pass.mayLose, hcan, Bool.and_false]
        · obtain ⟨a, _, ha⟩ := List.mem_map.mp hm
          obtain ⟨_, rfl⟩ := Prod.mk.inj ha
          rfl
      exact fun hmay => Bool.false_ne_true (hnot.symm.trans hmay.1)

end Steps

/-! ## Runs -/

/-- What the history accounts for in a reachable state. -/
structure Accounts (c : Config) (h : History) : Prop where
  proper : ∀ e ∈ h, e.Proper
  follows : ∀ d, c.Live d → Follows d c.server.kernel h
  complete : ∀ d, c.Live d → (heardBy d h).map Prod.fst = saidByOthers d h
  spies : ∀ d, LiveIn c.server.wifiServerSPY.entries d →
    ∀ x ∈ heardBy d h, x.2 = ⟨x.1.power, false⟩

section Runs

variable {medium : Medium} {setup : Setup} {ls : List Label} {c : Config}

/-- What holds of the server's two registries, of its descriptors and of the history
holds in every run whose steps meet `Q`. -/
theorem history_invariant {Q : Config → Label → Prop}
    {I : (Bool → Registry) → Kernel → History → Prop}
    (preserve : ∀ c l c' v v' h, I v c.server.kernel h → Q c l → c.Sees v →
      Ledger v c.server.kernel.log → step medium c l = some c' → StepCases medium c l v c' v' →
      I v' c'.server.kernel (h ++ c.events medium l))
    (hinit : I initialView (init setup).server.kernel [])
    (hsteps : Lts.Steps (step medium) Q (init setup) ls)
    (hrun : Lts.run (step medium) (init setup) ls = some c) :
    ∃ v, c.Sees v ∧ I v c.server.kernel (history medium setup ls) := by
  have hinv : ∃ v, c.Sees v ∧ Ledger v c.server.kernel.log ∧
      I v c.server.kernel (history medium setup ls) := by
    refine @Lts.outputs_invariant _ _ _ _ (events medium)
      (fun c h => ∃ v, c.Sees v ∧ Ledger v c.server.kernel.log ∧ I v c.server.kernel h) Q
      (init setup) c ls [] ?_ ⟨initialView, init_sees setup, init_ledger setup, hinit⟩ hsteps hrun
    intro c h l c' hinv hq hstep
    obtain ⟨v, hv, hl, hi⟩ := hinv
    obtain ⟨v', hv', hcases⟩ := step_cases hv hstep
    obtain ⟨_, hflow, _⟩ := step_flow hv hcases
    exact ⟨v', hv', hflow.ledger hl, preserve c l c' v v' h hi hq hv hl hstep hcases⟩
  obtain ⟨v, hv, _, hi⟩ := hinv
  exact ⟨v, hv, hi⟩

theorem not_liveIn_initialView (b : Bool) (d : TDescriptor) :
    ¬ LiveIn (initialView b).entries d := by
  rintro ⟨e, he, _⟩
  cases he

theorem run_accounts (hrun : Lts.run (step medium) (init setup) ls = some c) :
    c.Accounts (history medium setup ls) := by
  have hnone : ∀ d, ¬ LiveOf initialView d := fun d =>
    not_or.mpr ⟨not_liveIn_initialView false d, not_liveIn_initialView true d⟩
  obtain ⟨v, hv, hr, hc⟩ := @history_invariant medium setup ls c (fun _ _ => True)
    (fun v k h => Records v k h ∧ Covers v h)
    (fun c l c' v v' h hi _ hv hl hstep hcases =>
      ⟨step_records hi.1 hl hv hstep hcases, step_covers hi.2 hl hv hcases⟩)
    ⟨⟨fun d hd => absurd hd (hnone d), fun e he => absurd he List.not_mem_nil⟩,
      ⟨fun d hd => absurd hd (hnone d), fun d hd => absurd hd (not_liveIn_initialView true d)⟩⟩
    (Lts.steps_of_labels (fun _ _ => trivial) _) hrun
  refine ⟨hr.proper, fun d hd => hr.follows d ((hv.live d).mp hd),
    fun d hd => hc.complete d ((hv.live d).mp hd), fun d hd => hc.spies d ?_⟩
  have hspy : c.server.wifiServerSPY = (v true).server := hv.views true
  rwa [hspy, Registry.server_entries] at hd

theorem run_sure (hrun : Lts.run (step medium) (init setup) ls = some c)
    (hsure : Lts.Steps (step medium) (fun c _ => c.server.globals.canLostPackets = false)
      (init setup) ls) (d : TDescriptor) :
    ∀ x ∈ heardBy d (history medium setup ls), ¬ MayMiss x := by
  obtain ⟨_, _, hall⟩ := @history_invariant medium setup ls c _
    (fun _ _ h => ∀ d, ∀ x ∈ heardBy d h, ¬ MayMiss x)
    (fun c l c' v v' h hi hq hv _ _ hcases => step_sure hi hv hcases hq)
    (fun d x hx => absurd hx List.not_mem_nil) hsure hrun
  exact hall d

end Runs

theorem liveIn_of_any {es : List Entry} {d : TDescriptor}
    (h : (es.any fun e => e.enabled && e.descriptor == d) = true) : LiveIn es d := by
  obtain ⟨e, he, hboth⟩ := List.any_eq_true.mp h
  rw [Bool.and_eq_true, beq_iff_eq] at hboth
  exact ⟨e, he, hboth⟩

theorem spied_run : ∃ c, Lts.run (step Medium.uniform) (init Setup.tcp) Label.spied = some c ∧
    LiveIn c.server.wifiServer.entries 10 ∧ LiveIn c.server.wifiServerSPY.entries 11 ∧
    sentOn 11 c.server.kernel.log = 236 :: 16 :: List.replicate 15 0 := by
  have hrun : (Lts.run (step Medium.uniform) (init Setup.tcp) Label.spied).map (fun c =>
      (c.server.wifiServer.entries.any fun e => e.enabled && e.descriptor == 10,
        c.server.wifiServerSPY.entries.any fun e => e.enabled && e.descriptor == 11,
        sentOn 11 c.server.kernel.log)) =
      some (true, true, 236 :: 16 :: List.replicate 15 0) := by
    decide +kernel
  obtain ⟨c, hc, hvalues⟩ := Option.map_eq_some_iff.mp hrun
  obtain ⟨hclient, hvalues⟩ := Prod.mk.inj hvalues
  obtain ⟨hspy, hsent⟩ := Prod.mk.inj hvalues
  exact ⟨c, hc, liveIn_of_any hclient, liveIn_of_any hspy, hsent⟩

/-- What the second client of `Label.chats` was sent. -/
theorem chats_run {setup : Setup} {sent : List UInt8}
    (hrun : (Lts.run (step Medium.uniform) (init setup) Label.chats).map (fun c =>
      (c.server.wifiServer.entries.any fun e => e.enabled && e.descriptor == 10,
        c.server.wifiServer.entries.any fun e => e.enabled && e.descriptor == 12,
        sentOn 12 c.server.kernel.log)) = some (true, true, sent)) :
    ∃ c, Lts.run (step Medium.uniform) (init setup) Label.chats = some c ∧ c.Live 10 ∧
      c.Live 12 ∧ sentOn 12 c.server.kernel.log = sent := by
  obtain ⟨c, hc, hvalues⟩ := Option.map_eq_some_iff.mp hrun
  obtain ⟨hspeaker, hvalues⟩ := Prod.mk.inj hvalues
  obtain ⟨hlistener, hsent⟩ := Prod.mk.inj hvalues
  exact ⟨c, hc, liveIn_append.mpr (Or.inl (liveIn_of_any hspeaker)),
    liveIn_append.mpr (Or.inl (liveIn_of_any hlistener)), hsent⟩

theorem chats_lossy : ∃ c, Lts.run (step Medium.uniform) (init Setup.lossy) Label.chats = some c ∧
    c.Live 10 ∧ c.Live 12 ∧
      sentOn 12 c.server.kernel.log = 226 :: 20 :: List.replicate 15 0 ++ [1, 2, 3, 4] :=
  chats_run (by decide +kernel)

section Runs

variable {medium : Medium} {setup : Setup} {ls : List Label} {c : Config}

/-- Without loss no frame is missing. -/
theorem streams_lossless (hrun : Lts.run (step medium) (init setup) ls = some c)
    (hsure : Lts.Steps (step medium) (fun c _ => c.server.globals.canLostPackets = false)
      (init setup) ls) {d : TDescriptor} (hlive : c.Live d) :
    sentOn d c.server.kernel.log = (heardBy d (history medium setup ls)).flatMap heardBytes ∧
      (heardBy d (history medium setup ls)).map Prod.fst =
        saidByOthers d (history medium setup ls) := by
  have haccounts := run_accounts hrun
  obtain ⟨got, hthins, hsent⟩ := (haccounts.follows d hlive).heard
  refine ⟨?_, haccounts.complete d hlive⟩
  rw [hsent, hthins.eq (run_sure hrun hsure d)]

theorem streams_lossless_chats : ∃ c,
    Lts.run (step Medium.uniform) (init Setup.tcp) Label.chats = some c ∧
      sentOn 12 c.server.kernel.log = 196 :: 16 :: List.replicate 15 0 ++
        226 :: 20 :: List.replicate 15 0 ++ [1, 2, 3, 4] ∧
      sentOn 12 c.server.kernel.log =
        (heardBy 12 (history Medium.uniform Setup.tcp Label.chats)).flatMap heardBytes := by
  obtain ⟨c, hrun, _, hlistener, hsent⟩ :=
    @chats_run Setup.tcp (196 :: 16 :: List.replicate 15 0 ++ 226 :: 20 :: List.replicate 15 0 ++
      [1, 2, 3, 4]) (by decide +kernel)
  refine ⟨c, hrun, hsent, (streams_lossless hrun ?_ hlistener).1⟩
  exact Lts.steps_of_stepsCheck (q := fun c _ => !c.server.globals.canLostPackets)
    (fun _ _ h => by simpa using h) (by decide +kernel)

/-- A spy misses nothing, whether or not packets can be lost, and gets each frame at
the power of its sender. -/
theorem spies_hear_all (hrun : Lts.run (step medium) (init setup) ls = some c)
    {d : TDescriptor} (hlive : LiveIn c.server.wifiServerSPY.entries d) :
    sentOn d c.server.kernel.log =
      (saidByOthers d (history medium setup ls)).flatMap Signal.bytes := by
  have haccounts := run_accounts hrun
  have hlive' : c.Live d := liveIn_append.mpr (Or.inr hlive)
  have hspy := haccounts.spies d hlive
  obtain ⟨got, hthins, hsent⟩ := (haccounts.follows d hlive').heard
  have hnone : ∀ x ∈ heardBy d (history medium setup ls), ¬ MayMiss x := by
    intro x hx hmay
    rw [MayMiss, hspy x hx] at hmay
    exact Bool.false_ne_true hmay.1
  have hbytes : ∀ x ∈ heardBy d (history medium setup ls), heardBytes x = Signal.bytes x.1 := by
    intro x hx
    rw [heardBytes, hspy x hx]
    rfl
  rw [hsent, hthins.eq hnone, ← haccounts.complete d hlive', List.flatMap_map]
  exact List.flatMap_congr hbytes

theorem spies_hear_all_spied : ∃ c,
    Lts.run (step Medium.uniform) (init Setup.tcp) Label.spied = some c ∧
      sentOn 11 c.server.kernel.log = 236 :: 16 :: List.replicate 15 0 ∧
      sentOn 11 c.server.kernel.log =
        (saidByOthers 11 (history Medium.uniform Setup.tcp Label.spied)).flatMap Signal.bytes := by
  obtain ⟨c, hrun, _, hspy, hsent⟩ := spied_run
  exact ⟨c, hrun, hsent, spies_hear_all hrun hspy⟩

/-- What the peer of a live connection wrote is, in order and without a gap, one stretch
for each frame that was read and what is still unread. The stretches are the frames
themselves exactly when all the frames are whole messages. -/
theorem said_in_order (hrun : Lts.run (step medium) (init setup) ls = some c)
    {d : TDescriptor} (hlive : c.Live d) :
    ∃ taken, broughtBy d (history medium setup ls) =
        some (taken.flatten ++ c.server.kernel.supply d) ∧
      List.Forall₂ Signal.ReadFrom taken (saidBy d (history medium setup ls)) ∧
      (taken.flatten = (saidBy d (history medium setup ls)).flatMap Signal.bytes ↔
        ∀ n ∈ saidBy d (history medium setup ls), n.Whole) := by
  obtain ⟨written, taken, hbrought, hwritten, hsaid⟩ := ((run_accounts hrun).follows d hlive).said
  exact ⟨taken, by rw [hbrought, hwritten], hsaid, flatten_eq_bytes_iff hsaid⟩

theorem said_in_order_chats : ∃ c,
    Lts.run (step Medium.uniform) (init Setup.lossy) Label.chats = some c ∧
      ∃ taken, broughtBy 10 (history Medium.uniform Setup.lossy Label.chats) =
          some (taken.flatten ++ c.server.kernel.supply 10) ∧
        List.Forall₂ Signal.ReadFrom taken
          (saidBy 10 (history Medium.uniform Setup.lossy Label.chats)) := by
  obtain ⟨c, hrun, hspeaker, _, _⟩ := chats_lossy
  obtain ⟨taken, hbrought, hsaid, _⟩ := said_in_order hrun hspeaker
  exact ⟨c, hrun, taken, hbrought, hsaid⟩

end Runs

end Config

end Vwifi
