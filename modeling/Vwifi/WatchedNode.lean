import Vwifi.ClientPhases

/-!
# The node the client watches

`_Connect` adds the new descriptor to the scheduler and nothing ever takes one out:
a reconnection leaves two nodes. `stop` closes the socket of a client that stays
marked as connected.
-/

namespace Vwifi

set_option autoImplicit false

/-- `start` has not connected. -/
def MainPoint.beforeConnect : MainPoint → Bool
  | announce => false
  | startTasks _ => false
  | join => false
  | returned => false
  | _ => true

theorem MainPoint.beforeTasks_of_beforeConnect {p : MainPoint} (h : p.beforeConnect = true) :
    p.beforeTasks = true := by
  cases p <;> first | rfl | cases h

namespace Client

variable {libnl : Libnl} {c c' : Client} {t : Task} {a : Answer}

/-- A connected client watches its current connection and nothing else, and every
descriptor it watches is open. -/
def Watched (c : Client) : Prop :=
  c.wifi.uplink.connectedToServer = true → ∃ d,
    c.wifi.uplink.master = some d ∧
    c.wifi.uplink.scheduler.listNodes = [d] ∧
    c.wifi.uplink.scheduler.nodeHasAction 0 = some (c.wifi.uplink.scheduler.dup d) ∧
    isOpen d c.wifi.uplink.kernel.log = true ∧
    ∀ x, c.wifi.uplink.scheduler.master x = true → isOpen x c.wifi.uplink.kernel.log = true

/-- No reconnection succeeds, and `stop` does not come to close a connection. -/
def KeepsConnection (c : Client) : Label → Prop
  | .thread .connectionToServerLoop .proceed =>
    (c.threads .connectionToServerLoop).point ≠ .announce
  | .stop =>
    c.stopping = .idle → c.wifi.uplink.connectedToServer = true →
      c.wifi.beingInitialized = true ∨ c.wifi.beingStarted = true
  | _ => True

theorem keepsConnection_of_ne {t : Task} {a : Answer}
    (h : (c.threads t).point ≠ .announce) : KeepsConnection c (.thread t a) := by
  unfold KeepsConnection
  split
  · rename_i heq
    cases heq
    exact h
  · rename_i heq
    cases heq
  · trivial

/-- What the nodes and the connection are at each point of `start` and of the
reconnection. -/
structure Linked (c : Client) : Prop where
  nodes : ∀ x, c.wifi.uplink.scheduler.master x = true → x ∈ c.wifi.uplink.scheduler.listNodes
  beforeConnect : c.main.beforeConnect = true →
    c.wifi.uplink.scheduler.listNodes = [] ∧ c.wifi.uplink.connectedToServer = false
  announce : c.main = .announce → c.wifi.uplink.connectedToServer = false ∧
    ∃ d, c.wifi.uplink.master = some d ∧ c.wifi.uplink.scheduler.listNodes = [d] ∧
      isOpen d c.wifi.uplink.kernel.log = true
  starting : ∀ ts, c.main = .startTasks ts → c.wifi.uplink.scheduler.listNodes ≠ []
  running : (c.threads .connectionToServerLoop).point ≠ .notStarted →
    c.wifi.uplink.scheduler.listNodes ≠ []
  connecting : (c.threads .connectionToServerLoop).point = .connect →
    c.wifi.uplink.connectedToServer = false
  reconnected : (c.threads .connectionToServerLoop).point = .announce →
    2 ≤ c.wifi.uplink.scheduler.listNodes.length

theorem init_linked (heap : Nat → UInt8) (driver : Int) : Linked (init heap driver) where
  nodes := nofun
  beforeConnect := fun _ => ⟨rfl, rfl⟩
  announce := nofun
  starting := nofun
  running := fun h => absurd rfl h
  connecting := nofun
  reconnected := nofun

theorem init_watched (heap : Nat → UInt8) (driver : Int) : Watched (init heap driver) := nofun

/-- Of one node that is the current connection. -/
theorem watched_of_node (hnodes : ∀ x, c.wifi.uplink.scheduler.master x = true →
      x ∈ c.wifi.uplink.scheduler.listNodes) {d : TDescriptor}
    (hmaster : c.wifi.uplink.master = some d) (hlist : c.wifi.uplink.scheduler.listNodes = [d])
    (hopen : isOpen d c.wifi.uplink.kernel.log = true) : Watched c := by
  intro _
  refine ⟨d, hmaster, hlist, ?_, hopen, fun x hx => ?_⟩
  · rw [CSelect.nodeHasAction, hlist]
    rfl
  · have hmem := hnodes x hx
    rw [hlist] at hmem
    rw [List.mem_singleton.mp hmem]
    exact hopen

theorem watched_of_disconnected (h : c.wifi.uplink.connectedToServer = false) : Watched c :=
  fun hc => absurd (h.symm.trans hc) Bool.false_ne_true

/-- What is done over a connection keeps it watched. -/
theorem watched_of_transfers (h : Watched c) (ht : c.wifi.uplink.Transfers c'.wifi.uplink) :
    Watched c' := by
  intro hc
  obtain ⟨d, hmaster, hlist, _, hopen, hset⟩ := h (ht.connected hc)
  refine ⟨d, ht.master.trans hmaster, ht.listNodes.trans hlist, ?_, (ht.opened d).trans hopen,
    fun x hx => ?_⟩
  · rw [CSelect.nodeHasAction, ht.listNodes, hlist]
    rfl
  · rw [ht.opened x]
    exact hset x (ht.set ▸ hx)

theorem watched_same (h : Watched c) (hu : c'.wifi.uplink = c.wifi.uplink) : Watched c' :=
  watched_of_transfers h (hu ▸ Uplink.Transfers.refl _)

section Linked

variable (hlinked : Linked c)
include hlinked

/-- The connection is talked over, and neither `start` nor the reconnection comes to
a point where more is known of it. -/
theorem linked_of_transfers (ht : c.wifi.uplink.Transfers c'.wifi.uplink)
    (hmain : c'.main = c.main)
    (hrunning : (c'.threads .connectionToServerLoop).point ≠ .notStarted →
      (c.threads .connectionToServerLoop).point ≠ .notStarted)
    (hconnecting : (c'.threads .connectionToServerLoop).point = .connect →
      (c.threads .connectionToServerLoop).point = .connect)
    (hannounce : (c'.threads .connectionToServerLoop).point = .announce →
      (c.threads .connectionToServerLoop).point = .announce) : Linked c' := by
  have hfalse (h : c.wifi.uplink.connectedToServer = false) :
      c'.wifi.uplink.connectedToServer = false := by
    cases hc : c'.wifi.uplink.connectedToServer with
    | false => rfl
    | true => exact absurd (h.symm.trans (ht.connected hc)) Bool.false_ne_true
  refine ⟨fun x hx => ?_, fun hp => ?_, fun hp => ?_, fun ts hp => ?_, fun hp => ?_, fun hp => ?_,
    fun hp => ?_⟩
  · rw [ht.listNodes]
    exact hlinked.nodes x (ht.set ▸ hx)
  · obtain ⟨hlist, hconnected⟩ := hlinked.beforeConnect (hmain ▸ hp)
    exact ⟨ht.listNodes.trans hlist, hfalse hconnected⟩
  · obtain ⟨hconnected, d, hmaster, hlist, hopen⟩ := hlinked.announce (hmain ▸ hp)
    exact ⟨hfalse hconnected, d, ht.master.trans hmaster, ht.listNodes.trans hlist,
      (ht.opened d).trans hopen⟩
  · rw [ht.listNodes]
    exact hlinked.starting ts (hmain ▸ hp)
  · rw [ht.listNodes]
    exact hlinked.running (hrunning hp)
  · exact hfalse (hlinked.connecting (hconnecting hp))
  · rw [ht.listNodes]
    exact hlinked.reconnected (hannounce hp)

theorem linked_same (hu : c'.wifi.uplink = c.wifi.uplink) (hmain : c'.main = c.main)
    (hthreads : c'.threads = c.threads) : Linked c' := by
  have ht : c.wifi.uplink.Transfers c'.wifi.uplink := hu ▸ Uplink.Transfers.refl _
  apply linked_of_transfers hlinked ht hmain
  all_goals
    rw [hthreads]
    exact id

theorem linked_goto {p : Point} (hrunning : (c.threads t).point ≠ .notStarted)
    (hconnecting : p ≠ .connect) (hannounce : p ≠ .announce) : Linked (c.goto t p) := by
  have hpoint := goto_point c t p .connectionToServerLoop
  refine linked_of_transfers hlinked (Uplink.Transfers.refl _) rfl ?_ ?_ ?_
  · rw [hpoint]
    split
    · rename_i heq
      exact fun _ => heq ▸ hrunning
    · exact id
  · rw [hpoint]
    split
    · exact fun h => absurd h hconnecting
    · exact id
  · rw [hpoint]
    split
    · exact fun h => absurd h hannounce
    · exact id

end Linked

theorem linked_goMain {d : Client} {p : MainPoint} (hlinked : Linked d)
    (hbefore : p.beforeConnect = true → d.main.beforeConnect = true) (hannounce : p ≠ .announce)
    (hstarting : ∀ ts, p = .startTasks ts → d.wifi.uplink.scheduler.listNodes ≠ []) :
    Linked (d.goMain p) where
  nodes := hlinked.nodes
  beforeConnect := fun hp => hlinked.beforeConnect (hbefore hp)
  announce := fun hp => absurd hp hannounce
  starting := hstarting
  running := hlinked.running
  connecting := hlinked.connecting
  reconnected := hlinked.reconnected

/-- Behind the first connection. -/
theorem linked_late (hbefore : c.main.beforeTasks = false)
    (hnodes : ∀ x, c.wifi.uplink.scheduler.master x = true →
      x ∈ c.wifi.uplink.scheduler.listNodes)
    (hlist : c.wifi.uplink.scheduler.listNodes ≠ [])
    (hconnecting : (c.threads .connectionToServerLoop).point = .connect →
      c.wifi.uplink.connectedToServer = false)
    (hreconnected : (c.threads .connectionToServerLoop).point = .announce →
      2 ≤ c.wifi.uplink.scheduler.listNodes.length) : Linked c := by
  refine ⟨hnodes, fun hp => ?_, fun hp => ?_, fun _ _ => hlist, fun _ => hlist, hconnecting,
    hreconnected⟩
  · have htasks := MainPoint.beforeTasks_of_beforeConnect hp
    exact absurd (hbefore.symm.trans htasks) Bool.false_ne_true
  · rw [hp] at hbefore
    cases hbefore

theorem nodes_addNode {s s' : CSelect} {d : TDescriptor}
    (hnodes : ∀ x, s.master x = true → x ∈ s.listNodes) (h : s' = s.addNode d) :
    ∀ x, s'.master x = true → x ∈ s'.listNodes := by
  subst h
  intro x hx
  by_cases heq : x = d
  · rw [heq]
    exact List.mem_append_right _ (List.mem_singleton_self d)
  · simp only [CSelect.addNode, Function.update_of_ne heq] at hx
    exact List.mem_append_left _ (hnodes x hx)

section Step

variable (hphased : Phased c) (hlinked : Linked c)
include hphased hlinked

/-! ## The tasks -/

theorem ThreadCases.linked (h : ThreadCases libnl c t a c') : Linked c' := by
  have hrunning := h.frame.running
  have hlate : c.main.beforeTasks = false := by
    cases hp : c.main.beforeTasks with
    | false => rfl
    | true => exact absurd (hphased.beforeTasks hp t) hrunning
  have hgoto {d : Client} {p : Point} (hu : d.wifi.uplink = c.wifi.uplink) (hmain : d.main = c.main)
      (hthreads : d.threads = c.threads) (hconnecting : p ≠ .connect) (hannounce : p ≠ .announce) :
      Linked (d.goto t p) :=
    linked_goto (linked_same hlinked hu hmain hthreads) (hthreads ▸ hrunning) hconnecting hannounce
  cases h with
  | interrupted _ _ => exact hgoto rfl rfl rfl nofun nofun
  | enter _ => exact linked_goto hlinked hrunning nofun nofun
  | move _ hp =>
    rcases hp with rfl | rfl
    · exact linked_goto hlinked hrunning nofun nofun
    · exact linked_goto hlinked hrunning nofun nofun
  | message _ h =>
    exact linked_of_transfers hlinked (CKernelWifi.processMessages_handles h).uplink rfl id id id
  | selected _ h =>
    rename_i s _
    have hs : Linked { c with wifi := s } :=
      linked_of_transfers hlinked (CKernelWifi.recvFromServer_handles h).uplink rfl id id id
    exact linked_goto hs hrunning nofun nofun
  | unloaded _ _ => exact hgoto rfl rfl rfl nofun nofun
  | initFailed _ => exact linked_goto hlinked hrunning nofun nofun
  | resolved _ => exact hgoto rfl rfl rfl nofun nofun
  | leaveWait _ _ => exact linked_goto hlinked hrunning nofun nofun
  | waitInterrupted _ _ => exact hgoto rfl rfl rfl nofun nofun
  | waitMore _ _ => exact linked_same hlinked rfl rfl rfl
  | registered _ => exact hgoto rfl rfl rfl nofun nofun
  | registerFailed _ => exact hgoto rfl rfl rfl nofun nofun
  | closed _ hlost =>
    obtain ⟨hscheduler, hconnected, _⟩ := c.wifi.uplink.close_scheduler
    refine linked_late hlate ?_ ?_ (fun _ => hconnected.trans hlost) ?_
    · exact hscheduler ▸ hlinked.nodes
    · exact hscheduler ▸ hlinked.running hrunning
    · intro hp
      rw [goto_point, if_pos rfl] at hp
      cases hp
  | attempted hpoint _ =>
    rename_i a _
    have hlist := hlinked.running hrunning
    have hlost := hlinked.connecting hpoint
    have hcases := c.wifi.uplink.connect_cases a
    generalize c.wifi.uplink.connect a = r at hcases ⊢
    obtain ⟨ok, u⟩ := r
    cases hcases with
    | failed hscheduler hconnected =>
      refine linked_late hlate ?_ ?_ (fun _ => hconnected.trans hlost) ?_
      · exact hscheduler ▸ hlinked.nodes
      · exact hscheduler ▸ hlist
      · intro hp
        rw [goto_point, if_pos rfl] at hp
        cases hp
    | connected d hmaster hscheduler hconnected hopen =>
      have hnew : u.scheduler.listNodes = c.wifi.uplink.scheduler.listNodes ++ [d] := by
        rw [hscheduler]
        rfl
      refine linked_late hlate (nodes_addNode hlinked.nodes hscheduler) ?_
        (fun _ => hconnected.trans hlost) fun _ => ?_
      · exact hnew ▸ List.append_ne_nil_of_left_ne_nil hlist [d]
      · have hpos := List.length_pos_iff.mpr hlist
        change 2 ≤ u.scheduler.listNodes.length
        rw [hnew, List.length_append, List.length_singleton]
        omega
  | announced hpoint =>
    refine linked_late hlate hlinked.nodes (hlinked.running hrunning) ?_ ?_
    · intro hp
      rw [goto_point, if_pos rfl] at hp
      cases hp
    · intro hp
      rw [goto_point, if_pos rfl] at hp
      cases hp

omit hphased in
theorem ThreadCases.watched_iff (hwatched : Watched c) (h : ThreadCases libnl c t a c') :
    Watched c' ↔ KeepsConnection c (.thread t a) := by
  have hkeeps {p : Point} (hpoint : (c.threads t).point = p) (hp : p ≠ .announce) :
      KeepsConnection c (.thread t a) := keepsConnection_of_ne (hpoint ▸ hp)
  have hsame (hu : c'.wifi.uplink = c.wifi.uplink) : Watched c' := watched_same hwatched hu
  cases h with
  | interrupted hpoint _ => exact iff_of_true (hsame rfl) (hkeeps hpoint nofun)
  | enter hpoint => exact iff_of_true (hsame rfl) (hkeeps hpoint nofun)
  | move hpoint _ =>
    refine iff_of_true (hsame rfl) ?_
    rcases hpoint with hpoint | hpoint
    · exact hkeeps hpoint nofun
    · exact hkeeps hpoint nofun
  | message hpoint h =>
    exact iff_of_true
      (watched_of_transfers hwatched (CKernelWifi.processMessages_handles h).uplink)
      (hkeeps hpoint nofun)
  | selected hpoint h =>
    exact iff_of_true
      (watched_of_transfers hwatched (CKernelWifi.recvFromServer_handles h).uplink)
      (hkeeps hpoint nofun)
  | unloaded hpoint _ => exact iff_of_true (hsame rfl) (hkeeps hpoint nofun)
  | initFailed hpoint => exact iff_of_true (hsame rfl) (hkeeps hpoint nofun)
  | resolved hpoint => exact iff_of_true (hsame rfl) (hkeeps hpoint nofun)
  | leaveWait hpoint _ => exact iff_of_true (hsame rfl) (hkeeps hpoint nofun)
  | waitInterrupted hpoint _ => exact iff_of_true (hsame rfl) (hkeeps hpoint nofun)
  | waitMore hpoint _ => exact iff_of_true (hsame rfl) (hkeeps hpoint nofun)
  | registered hpoint => exact iff_of_true (hsame rfl) (hkeeps hpoint nofun)
  | registerFailed hpoint => exact iff_of_true (hsame rfl) (hkeeps hpoint nofun)
  | closed hpoint hlost =>
    have hconnected := c.wifi.uplink.close_scheduler.2.1
    exact iff_of_true (watched_of_disconnected (hconnected.trans hlost)) (hkeeps hpoint nofun)
  | attempted hpoint _ =>
    rename_i a _
    have hlost := (c.wifi.uplink.connect_connected a).trans (hlinked.connecting hpoint)
    exact iff_of_true (watched_of_disconnected hlost) (hkeeps hpoint nofun)
  | announced hpoint =>
    -- the reconnection has left the node of the connection before
    refine iff_of_false (fun h => ?_) (fun hp => hp hpoint)
    obtain ⟨d, _, hlist, _⟩ := h rfl
    have hlen := hlinked.reconnected hpoint
    have hone : c.wifi.uplink.scheduler.listNodes.length = 1 := congrArg List.length hlist
    omega

/-! ## `start` and `stop` -/

theorem MainCases.linked (h : MainCases c a c') : Linked c' := by
  have hsame {d : Client} (hu : d.wifi.uplink = c.wifi.uplink) (hmain : d.main = c.main)
      (hthreads : d.threads = c.threads) : Linked d := linked_same hlinked hu hmain hthreads
  have hbefore {p : MainPoint} (hmain : c.main = p) (hp : p.beforeConnect = true) :
      c.main.beforeConnect = true := hmain ▸ hp
  cases h with
  | created hmain =>
    split
    · exact linked_goMain (hsame rfl rfl rfl) (fun _ => hbefore hmain rfl) nofun nofun
    · exact linked_goMain (hsame rfl rfl rfl) (fun _ => hbefore hmain rfl) nofun nofun
  | resolved hmain =>
    exact linked_goMain (hsame rfl rfl rfl) (fun _ => hbefore hmain rfl) nofun nofun
  | found hmain _ => exact linked_goMain hlinked (fun _ => hbefore hmain rfl) nofun nofun
  | waitMore _ => exact hsame rfl rfl rfl
  | registered hmain =>
    exact linked_goMain (hsame rfl rfl rfl) (fun _ => hbefore hmain rfl) nofun nofun
  | registerFailed _ => exact linked_goMain (hsame rfl rfl rfl) nofun nofun nofun
  | initialized hmain =>
    exact linked_goMain (hsame rfl rfl rfl) (fun _ => hbefore hmain rfl) nofun nofun
  | monitored hmain =>
    exact linked_goMain (hsame rfl rfl rfl) (fun _ => hbefore hmain rfl) nofun nofun
  | attempted hmain _ =>
    rename_i a _
    obtain ⟨hnil, hlost⟩ := hlinked.beforeConnect (hbefore hmain rfl)
    have hpoint : (c.threads .connectionToServerLoop).point = .notStarted :=
      hphased.beforeTasks (hmain ▸ rfl) _
    have hcases := c.wifi.uplink.connect_cases a
    generalize c.wifi.uplink.connect a = r at hcases ⊢
    obtain ⟨ok, u⟩ := r
    cases hcases with
    | failed hscheduler hconnected =>
      refine ⟨hscheduler ▸ hlinked.nodes,
        fun _ => ⟨hscheduler ▸ hnil, hconnected.trans hlost⟩, nofun, nofun,
        fun hp => absurd hpoint hp, fun _ => hconnected.trans hlost,
        fun hp => absurd (hpoint.symm.trans hp) nofun⟩
    | connected d hmaster hscheduler hconnected hopen =>
      have hnew : u.scheduler.listNodes = [d] := by
        rw [hscheduler, CSelect.addNode, hnil, List.nil_append]
      refine ⟨nodes_addNode hlinked.nodes hscheduler, nofun,
        fun _ => ⟨hconnected.trans hlost, d, hmaster, hnew, hopen⟩, nofun,
        fun hp => absurd hpoint hp, fun _ => hconnected.trans hlost,
        fun hp => absurd (hpoint.symm.trans hp) nofun⟩
  | retry hmain => exact linked_goMain hlinked (fun _ => hbefore hmain rfl) nofun nofun
  | announced hmain =>
    obtain ⟨_, d, _, hlist, _⟩ := hlinked.announce hmain
    have hne : c.wifi.uplink.scheduler.listNodes ≠ [] := hlist ▸ List.cons_ne_nil d []
    have hpoint : (c.threads .connectionToServerLoop).point = .notStarted :=
      hphased.beforeTasks (hmain ▸ rfl) _
    refine ⟨hlinked.nodes, nofun, nofun, fun _ _ => hne, fun _ => hne,
      fun hp => absurd (hpoint.symm.trans hp) nofun, hlinked.reconnected⟩
  | startTask hmain =>
    rename_i t rest
    have hne := hlinked.starting _ hmain
    refine linked_late rfl hlinked.nodes hne ?_ ?_
    · intro hp
      rw [show (((c.startTask t).goMain (.startTasks rest)).threads .connectionToServerLoop).point =
        _ from startTask_point c t _] at hp
      split at hp
      · cases hp
      · exact hlinked.connecting hp
    · intro hp
      rw [show (((c.startTask t).goMain (.startTasks rest)).threads .connectionToServerLoop).point =
        _ from startTask_point c t _] at hp
      split at hp
      · cases hp
      · exact hlinked.reconnected hp
  | started hmain =>
    exact linked_late rfl hlinked.nodes (hlinked.starting _ hmain) hlinked.connecting
      hlinked.reconnected
  | returned _ => exact linked_goMain hlinked nofun nofun nofun

omit hphased in
theorem MainCases.watched (hwatched : Watched c) (h : MainCases c a c') : Watched c' := by
  have hsame (hu : c'.wifi.uplink = c.wifi.uplink) : Watched c' := watched_same hwatched hu
  cases h with
  | created _ => exact hsame rfl
  | resolved _ => exact hsame rfl
  | found _ _ => exact hsame rfl
  | waitMore _ => exact hsame rfl
  | registered _ => exact hsame rfl
  | registerFailed _ => exact hsame rfl
  | initialized _ => exact hsame rfl
  | monitored _ => exact hsame rfl
  | attempted hmain _ =>
    rename_i a _
    have hlost := (hlinked.beforeConnect (hmain ▸ rfl)).2
    exact watched_of_disconnected ((c.wifi.uplink.connect_connected a).trans hlost)
  | retry _ => exact hsame rfl
  | announced hmain =>
    obtain ⟨_, d, hmaster, hlist, hopen⟩ := hlinked.announce hmain
    exact watched_of_node hlinked.nodes hmaster hlist hopen
  | startTask _ => exact hsame rfl
  | started _ => exact hsame rfl
  | returned _ => exact hsame rfl

omit hphased in
theorem StopCases.linked (h : StopCases c c') : Linked c' := by
  have hframe := h.frame
  have hpoint := hframe.points .connectionToServerLoop
  cases h with
  | close hstop h _ _ =>
    obtain ⟨hscheduler, hconnected, _⟩ := c.wifi.uplink.close_scheduler
    have hlost : c.wifi.uplink.connectedToServer ≠ false :=
      fun heq => absurd (heq.symm.trans h) Bool.false_ne_true
    refine ⟨hscheduler ▸ hlinked.nodes, fun hp => absurd (hlinked.beforeConnect hp).2 hlost,
      fun hp => absurd (hlinked.announce hp).1 hlost, fun ts hp => ?_, fun hp => ?_,
      fun hp => absurd (hlinked.connecting hp) hlost, fun hp => ?_⟩
    · exact hscheduler ▸ hlinked.starting ts hp
    · exact hscheduler ▸ hlinked.running hp
    · exact hscheduler ▸ hlinked.reconnected hp
  | initializing _ => exact linked_same hlinked rfl rfl rfl
  | starting _ => exact linked_same hlinked rfl rfl rfl
  | interrupt _ =>
    refine linked_of_transfers hlinked (Uplink.Transfers.refl _) rfl ?_ ?_ ?_
    · exact hpoint ▸ id
    · exact hpoint ▸ id
    · exact hpoint ▸ id
  | unconnected _ _ => exact linked_same hlinked rfl rfl rfl
  | interrupted _ => exact linked_same hlinked rfl rfl rfl
  | done _ _ => exact linked_same hlinked rfl rfl rfl

omit hphased hlinked in
theorem StopCases.watched_iff (hwatched : Watched c) (h : StopCases c c') :
    Watched c' ↔ KeepsConnection c .stop := by
  have hsame (hu : c'.wifi.uplink = c.wifi.uplink) : Watched c' := watched_same hwatched hu
  cases h with
  | initializing h => exact iff_of_true (hsame rfl) fun _ _ => Or.inl h
  | starting h => exact iff_of_true (hsame rfl) fun _ _ => Or.inr h
  | close hstop h hinit hstart =>
    obtain ⟨_, hconnected, hmaster⟩ := c.wifi.uplink.close_scheduler
    refine iff_of_false (fun hw => ?_) fun hk => ?_
    · obtain ⟨d, hd, _⟩ := hw (hconnected.trans h)
      exact absurd (hmaster.symm.trans hd) nofun
    · rcases hk hstop h with hk | hk
      · exact absurd (hinit.symm.trans hk) Bool.false_ne_true
      · exact absurd (hstart.symm.trans hk) Bool.false_ne_true
  | interrupt hstop =>
    exact iff_of_true (hsame rfl) fun hidle _ => absurd (hstop.symm.trans hidle) nofun
  | unconnected _ h =>
    exact iff_of_true (hsame rfl) fun _ hc => absurd (h.symm.trans hc) Bool.false_ne_true
  | interrupted hstop =>
    exact iff_of_true (hsame rfl) fun hidle _ => absurd (hstop.symm.trans hidle) nofun
  | done hstop _ =>
    exact iff_of_true (hsame rfl) fun hidle _ => absurd (hstop.symm.trans hidle) nofun

theorem step_linked {l : Label} (h : c.step libnl l = some c') : Linked c' := by
  cases step_cases h with
  | main h => exact h.linked hphased hlinked
  | thread h => exact h.linked hphased hlinked
  | stop h => exact h.linked hlinked
  | driver => exact linked_same hlinked rfl rfl rfl
  | interfaces => exact linked_same hlinked rfl rfl rfl

omit hphased in
theorem step_watched_iff (hwatched : Watched c) {l : Label} (h : c.step libnl l = some c') :
    Watched c' ↔ KeepsConnection c l := by
  cases step_cases h with
  | main h => exact iff_of_true (h.watched hlinked hwatched) trivial
  | thread h => exact h.watched_iff hlinked hwatched
  | stop h => exact h.watched_iff hwatched
  | driver => exact iff_of_true (watched_same hwatched rfl) trivial
  | interfaces => exact iff_of_true (watched_same hwatched rfl) trivial

end Step

/-- In a run the connected client watches its current connection and nothing else
exactly as long as no reconnection succeeds and `stop` closes no connection. -/
theorem watched_exact_iff (libnl : Libnl) (heap : Nat → UInt8) (driver : Int)
    (labels : List Label) :
    Lts.States (step libnl) Watched (init heap driver) labels ↔
      Lts.Steps (step libnl) KeepsConnection (init heap driver) labels := by
  apply Lts.states_iff_steps labels (I := fun c => Phased c ∧ Linked c)
  · exact fun c l c' hc h => ⟨step_phased hc.1 h, step_linked hc.1 hc.2 h⟩
  · exact fun c l c' hc hwatched h => step_watched_iff hc.2 hwatched h
  · exact ⟨init_phased heap driver, init_linked heap driver⟩
  · exact init_watched heap driver

/-- The server closes the connection 5, and the client connects again on 7. -/
def reconnects : List Label :=
  [.thread .serverloop .proceed, .thread .serverloop .proceed,
    .thread .serverloop (.selected (.ready (fun d => d = 5) 1) ⟨0, fun _ => none, fun _ => 0⟩ []),
    .thread .connectionToServerLoop .proceed, .thread .connectionToServerLoop .proceed,
    .thread .connectionToServerLoop (.attempt (.connected ⟨7, [], []⟩)),
    .thread .connectionToServerLoop .proceed]

/-- The descriptor that was closed is still a node, and the first one. -/
theorem watched_exact_fails :
    ¬ Lts.States (step Libnl.walk) Watched (init (fun _ => 0) 30)
      (calmStart ⟨5, [], []⟩ ++ reconnects) := by
  intro h
  have hrun : (Lts.run (step Libnl.walk) (init (fun _ => 0) 30)
      (calmStart ⟨5, [], []⟩ ++ reconnects)).map
        (fun c => (c.wifi.uplink.connectedToServer, c.wifi.uplink.scheduler.listNodes)) =
          some (true, [5, 7]) := by
    decide +kernel
  obtain ⟨c, hc, heq⟩ := Option.map_eq_some_iff.mp hrun
  obtain ⟨hconnected, hnodes⟩ := Prod.mk.inj heq
  obtain ⟨d, _, hlist, _⟩ := (h.last hc) hconnected
  rw [hnodes] at hlist
  cases hlist

end Client

end Vwifi
