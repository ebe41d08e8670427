import Vwifi.Identity
import Vwifi.Truncation
import Vwifi.Waiting

/-!
# Who can connect

`SetCid` asserts that a CID is that of a guest, or zero. `Accept` hands it what
the peer brings: the CID of a vsock address, or the hash of an IPv4 address and
perhaps of its port. The peers for whom the assertion fails end the server.
-/

namespace Vwifi

set_option autoImplicit false

/-- The other end of a connection, with the server that accepts it. -/
inductive Peer where
  | vhost (svmCid : UInt32)
  | tcp (addr : SockaddrIn)
  | spy (addr : SockaddrIn)

/-- What the hash adds for the port, as it stands in memory. -/
def SockaddrIn.portWeight (hashUsesPort : Bool) (addr : SockaddrIn) : Nat :=
  if hashUsesPort then addr.sinPort.toNat else 0

namespace Peer

/-- The CID that `_Accept` gives back. -/
def cid (hashUsesPort : Bool) : Peer → TCID
  | vhost svmCid => svmCid
  | tcp addr => UInt32.ofNat (hashIpaddr hashUsesPort addr)
  | spy addr => UInt32.ofNat (hashIpaddr hashUsesPort addr)

/-- The hypervisor, the host, and the addresses whose hash is one of their CIDs:
only the first octet and the port are left to add up to it. -/
def Reserved (hashUsesPort : Bool) : Peer → Prop
  | vhost svmCid => svmCid = 1 ∨ svmCid = 2
  | tcp addr | spy addr =>
    (addr.octet 8 = 0 ∧ addr.octet 16 = 0 ∧ addr.octet 24 = 0) ∧
      (addr.octet 0 + addr.portWeight hashUsesPort = 1 ∨
        addr.octet 0 + addr.portWeight hashUsesPort = 2)

def phase : Peer → Phase
  | vhost _ => .acceptVTCP
  | tcp _ => .acceptITCP
  | spy _ => .acceptSPY

def label (inc : Incoming) : Peer → Label
  | vhost svmCid => .connectVm inc svmCid
  | tcp addr => .connectIn inc addr
  | spy addr => .connectIn inc addr

end Peer

/-- `Accept` comes to its end: the assertion of `SetCid` holds, and the search
for the CID stays inside of the vectors. -/
structure CWifiServer.Completes (s : CWifiServer) (d : TDescriptor) (cid : TCID) : Prop where
  cidOk : cid = 0 ∨ tcidGuestMin ≤ cid
  inRange : ∃ found, CWifiServer.recoverInfosOfInfoWifi
    { s with infoSockets := s.infoSockets ++ [⟨d, true⟩] } cid = some found
  accepted : ∃ s', s.accept d cid = some s'

/-! ## The CID of a peer -/

theorem hashIpaddr_port (hashUsesPort : Bool) (addr : SockaddrIn) :
    hashIpaddr hashUsesPort addr =
      addr.octet 0 + 256 * addr.octetSum + addr.portWeight hashUsesPort := by
  rw [← hashIpaddr_eq]
  cases hashUsesPort <;> rfl

theorem toNat_hashIpaddr (hashUsesPort : Bool) (addr : SockaddrIn) :
    (UInt32.ofNat (hashIpaddr hashUsesPort addr)).toNat =
      addr.octet 0 + 256 * addr.octetSum + addr.portWeight hashUsesPort := by
  have h0 := addr.octet_lt 0
  have h8 := addr.octet_lt 8
  have h16 := addr.octet_lt 16
  have h24 := addr.octet_lt 24
  have hport : addr.portWeight hashUsesPort < 65536 := by
    have hlt := addr.sinPort.toNat_lt
    rw [SockaddrIn.portWeight]
    split <;> omega
  have hlt : addr.octet 0 + 256 * addr.octetSum + addr.portWeight hashUsesPort < 2 ^ 32 := by
    rw [SockaddrIn.octetSum]
    omega
  rw [UInt32.toNat_ofNat', hashIpaddr_port]
  exact Nat.mod_eq_of_lt hlt

theorem not_ok_iff (cid : TCID) : ¬ (cid = 0 ∨ tcidGuestMin ≤ cid) ↔ cid = 1 ∨ cid = 2 := by
  constructor
  · exact cid_of_not_ok
  · rintro (rfl | rfl) <;> decide

theorem hash_reserved_iff (hashUsesPort : Bool) (addr : SockaddrIn) :
    UInt32.ofNat (hashIpaddr hashUsesPort addr) = 1 ∨
        UInt32.ofNat (hashIpaddr hashUsesPort addr) = 2 ↔
      (Peer.tcp addr).Reserved hashUsesPort := by
  have h1 : UInt32.toNat 1 = 1 := rfl
  have h2 : UInt32.toNat 2 = 2 := rfl
  rw [← UInt32.toNat_inj, ← UInt32.toNat_inj, toNat_hashIpaddr, h1, h2, Peer.Reserved,
    SockaddrIn.octetSum]
  constructor
  · intro h
    omega
  · intro h
    omega

theorem Peer.cid_ok_iff (hashUsesPort : Bool) (p : Peer) :
    (p.cid hashUsesPort = 0 ∨ tcidGuestMin ≤ p.cid hashUsesPort) ↔ ¬ p.Reserved hashUsesPort := by
  rw [← not_iff_not, not_not, not_ok_iff]
  cases p with
  | vhost svmCid => rfl
  | tcp addr => exact hash_reserved_iff hashUsesPort addr
  | spy addr => exact hash_reserved_iff hashUsesPort addr

/-! ## Accept -/

/-- Nothing but the assertion of `SetCid` can end `Accept`. -/
theorem Registry.connect_iff (r : Registry) (d : TDescriptor) (cid : TCID) :
    (∃ r', r.connect d cid = some r') ↔ cid = 0 ∨ tcidGuestMin ≤ cid := by
  constructor
  · rintro ⟨r', h⟩
    obtain ⟨_, w, _, hcid, _⟩ := Config.connect_entries h
    rw [← hcid]
    exact w.cidOk
  · intro hok
    have hset : CInfoWifi.default.setCid cid =
        some { CInfoWifi.default with cid := cid, cidOk := hok } := dif_pos hok
    unfold connect
    split
    · exact ⟨_, rfl⟩
    · split
      · exact ⟨_, rfl⟩
      · rw [hset]
        exact ⟨_, rfl⟩

theorem CWifiServer.completes_iff {s : CWifiServer} (h : s.Sound) (d : TDescriptor) (cid : TCID) :
    s.Completes d cid ↔ cid = 0 ∨ tcidGuestMin ≤ cid := by
  obtain ⟨r, rfl⟩ := Registry.eq_server h
  constructor
  · exact fun hcompletes => hcompletes.cidOk
  · intro hok
    obtain ⟨r', hr'⟩ := (r.connect_iff d cid).mpr hok
    refine ⟨hok, ⟨_, Registry.recoverInfosOfInfoWifi_eq _ _ _ _ _⟩, r'.server, ?_⟩
    rw [Registry.accept_server, hr']
    rfl

namespace Config

/-- The server that the peer connects to is about to accept, and the kernel has
a descriptor for the connection. -/
structure Offers (c : Config) (p : Peer) (inc : Incoming) : Prop where
  phase : c.phase = p.phase
  ready : ∃ m, c.server.listenerAt p.phase = some m ∧ c.server.hasAction m = true
  unused : c.server.unused inc.descriptor = true

variable {medium : Medium} {c : Config} {v : Bool → Registry} {p : Peer} {inc : Incoming}

theorem accepted_iff {r : Registry} {d : TDescriptor} {cid : TCID} (f : Registry → Server)
    (phase : Phase) :
    (∃ c', (((r.connect d cid).map f).bind fun s => next s phase) = some c') ↔
      cid = 0 ∨ tcidGuestMin ≤ cid := by
  rw [← r.connect_iff d cid]
  cases r.connect d cid with
  | none => simp
  | some r' => exact iff_of_true ⟨_, rfl⟩ ⟨r', rfl⟩

/-- The step of an accepted connection is there as long as `Accept` comes to its end. -/
theorem connect_step_iff (hv : c.Sees v) (hoffers : c.Offers p inc) :
    (∃ c', step medium c (p.label inc) = some c') ↔
      p.cid c.server.hashUsesPort = 0 ∨ tcidGuestMin ≤ p.cid c.server.hashUsesPort := by
  obtain ⟨hphase, ⟨m, hm, hready⟩, hunused⟩ := hoffers
  cases p with
  | vhost svmCid =>
    have hvtcp : vtcpHasAction c.server = true := by
      obtain ⟨vtcp, hsome, rfl⟩ := Option.map_eq_some_iff.mp hm
      rw [vtcpHasAction, hsome]
      exact hready
    simp only [step, hphase, Peer.phase, Peer.label]
    rw [if_pos ⟨hvtcp, hunused⟩, Server.acceptClient_server hv.views]
    exact accepted_iff _ _
  | tcp addr =>
    cases hm
    simp only [step, hphase, Peer.phase, Peer.label]
    rw [if_pos ⟨hready, hunused⟩, Server.acceptClient_server hv.views]
    exact accepted_iff _ _
  | spy addr =>
    cases hm
    simp only [step, hphase, Peer.phase, Peer.label]
    rw [if_pos ⟨hready, hunused⟩, Server.acceptSpy_server hv.views]
    exact accepted_iff _ _

/-- `Accept` comes to its end for a peer that is not reserved and for no other,
whatever the registry, and so does the step of the main loop. -/
theorem accepts_iff (p : Peer) :
    (∀ (hashUsesPort : Bool) (s : CWifiServer) (d : TDescriptor), s.Sound →
      (s.Completes d (p.cid hashUsesPort) ↔ ¬ p.Reserved hashUsesPort)) ∧
    ∀ (medium : Medium) (setup : Setup) (ls : List Label),
      Lts.States (step medium) (fun c => ∀ inc, c.Offers p inc →
        ((∃ c', step medium c (p.label inc) = some c') ↔ ¬ p.Reserved setup.hashUsesPort))
        (init setup) ls := by
  refine ⟨fun hashUsesPort s d h => ?_, fun medium setup ls => ?_⟩
  · rw [CWifiServer.completes_iff h, p.cid_ok_iff]
  · have hstates : Lts.States (step medium)
        (fun c => c.server.hashUsesPort = setup.hashUsesPort ∧ ∃ v, c.Sees v) (init setup) ls := by
      refine Lts.states_of_invariant ls ?_ ⟨rfl, initialView, init_sees setup⟩
      rintro c l c' ⟨hport, v, hv⟩ h
      obtain ⟨v', hv', hcases⟩ := step_cases hv h
      exact ⟨(congrArg Prod.fst hcases.fixed).trans hport, v', hv'⟩
    refine hstates.mono ?_
    rintro c ⟨hport, v, hv⟩ inc hoffers
    rw [connect_step_iff hv hoffers, hport, p.cid_ok_iff]

/-- A server with two guests on it, the second of them over a connection that
was displaced, that remembers two more. -/
def busyServer : CWifiServer where
  maxClientDeconnected := 15
  infoSockets := [⟨7, true⟩, ⟨8, false⟩]
  infoWifis := [12, 20].filterMap CInfoWifi.default.setCid
  infoWifisDeconnected := [33, 266].filterMap CInfoWifi.default.setCid

/-- A guest that the server remembers comes back. -/
theorem accepts_returning :
    busyServer.Completes 10 ((Peer.tcp ⟨0x0100000A, 80⟩).cid false) := by
  have hcompletes := (accepts_iff (.tcp ⟨0x0100000A, 80⟩)).1 false busyServer 10 ⟨rfl, by decide⟩
  apply hcompletes.mpr
  rintro ⟨⟨_, _, hlast⟩, _⟩
  exact absurd hlast (by decide)

/-- A local process that connects over vsock has CID 1, and the hash of 1.0.0.0
is 1: the first connection of either ends the server. -/
theorem accepts_fails :
    (¬ ∀ (hashUsesPort : Bool) (p : Peer) (s : CWifiServer) (d : TDescriptor), s.Sound →
      s.Completes d (p.cid hashUsesPort)) ∧
    CWifiServer.accept ⟨15, [], [], []⟩ 10 ((Peer.vhost 1).cid false) = none ∧
    (Lts.run (step Medium.uniform) (init Setup.tcp) [.select (.ready (· = 3) 1), .skip]).map
      (fun c => (c.server.hasAction 3, (step Medium.uniform c
        ((Peer.tcp ⟨0x00000001, 80⟩).label ⟨10, [], []⟩)).isNone)) = some (true, true) := by
  refine ⟨?_, by decide, by decide +kernel⟩
  intro h
  have hcompletes := h false (.vhost 1) ⟨15, [], [], []⟩ 10 ⟨rfl, by decide⟩
  exact absurd hcompletes.cidOk (by decide)

end Config

end Vwifi
