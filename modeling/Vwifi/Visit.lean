import Vwifi.Delivery
import Vwifi.Forward
import Vwifi.SocketSpec

/-!
# One round of ForwardData

`visit_cases` says all that one round of the loop can do with the entry at its
index; it never fails.
-/

namespace Vwifi

set_option autoImplicit false

theorem transmit_delivers (power : TPower) (data : List UInt8) (i : TIndex) (e : Entry) :
    CWifiServer.BodyDelivers false (fun _ => power) data (CWifiServer.transmit power data) i e := by
  intro k
  obtain ⟨acts, hcases, hwrites⟩ := sendSignal_cases k e.descriptor power data
  exact ⟨_, _, acts, rfl, hwrites, Or.inr ⟨fun h => absurd h Bool.false_ne_true, hcases⟩⟩

/-- The level at which the entry `e` hears what is sent at `coo`. -/
def signalLevel (medium : Medium) (scale : TScale) (coo : CCoordinate) (power : TPower)
    (data : List UInt8) (e : Entry) : TPower :=
  CWifi.boundedPower (power.toInt32 -
    CWifi.attenuation medium (coo.distanceWith medium scale e.info.toCCoordinate)
      (CWifi.getFrequency medium data))

theorem transmitAttenuated_delivers (medium : Medium) (canLostPackets : Bool) (scale : TScale)
    {r : Registry} (coo : CCoordinate) (power : TPower) (data : List UInt8) {i : TIndex} {e : Entry}
    (h : r.entries[i]? = some e) :
    CWifiServer.BodyDelivers canLostPackets (signalLevel medium scale coo power data) data
      (CWifiServer.transmitAttenuated medium canLostPackets scale r.server coo power data) i e := by
  intro k
  have hinfo : r.server.infoWifis[i]? = some e.info := by
    rw [Registry.getElem?_infoWifis, h]
    rfl
  simp only [CWifiServer.transmitAttenuated, hinfo]
  split
  · rename_i hcan
    cases hlost : CWifi.packetIsLost k (signalLevel medium scale coo power data e) with
    | mk lost k₁ =>
      have hlost' := hlost
      rw [signalLevel] at hlost'
      have hwrites₁ : k.Writes k₁ [] := by
        have : k₁ = k.rand.2 := (congrArg Prod.snd hlost).symm
        rw [this]
        exact ⟨rfl, rfl, (List.append_nil _).symm⟩
      simp only [hlost']
      cases lost with
      | true =>
        have hlevel := CWifi.losable_of_lost (congrArg Prod.fst hlost)
        exact ⟨true, k₁, [], rfl, hwrites₁, Or.inl ⟨hcan, hlevel, rfl, rfl⟩⟩
      | false =>
        have hlevel := CWifi.audible_of_kept (congrArg Prod.fst hlost)
        obtain ⟨acts, hcases, hwrites⟩ :=
          sendSignal_cases k₁ e.descriptor (signalLevel medium scale coo power data e) data
        exact ⟨_, _, acts, rfl, hwrites₁.trans hwrites, Or.inr ⟨fun _ => hlevel, hcases⟩⟩
  · rename_i hcan
    obtain ⟨acts, hcases, hwrites⟩ :=
      sendSignal_cases k e.descriptor (signalLevel medium scale coo power data e) data
    exact ⟨_, _, acts, rfl, hwrites, Or.inr ⟨fun h => absurd h hcan, hcases⟩⟩

namespace Pass

/-- Whether a recipient of the registry the frame comes from may miss it. -/
def mayLose (srcIsSpy : Bool) (g : Globals) : Bool := !srcIsSpy && g.canLostPackets

/-- The level at which the entries of that registry get it. -/
def levelFrom (medium : Medium) (srcIsSpy : Bool) (g : Globals) (sender : Entry) (power : TPower)
    (data : List UInt8) : Entry → TPower :=
  if srcIsSpy then fun _ => power
  else signalLevel medium g.scale sender.info.toCCoordinate power data

/-- What `RecvSignal` returns in the round that reads the entry `e`. -/
def received (g : Globals) (e : Entry) : CWifi.Received :=
  CWifiServer.recvSignal g.kernel e.descriptor 0 g.buffer

def frame (rec : CWifi.Received) : List UInt8 := rec.buffer.buffer.take rec.valread.toNat

def ready (g : Globals) (e : Entry) : Bool := g.scheduler.descriptorHasAction e.descriptor

variable (medium : Medium) (srcIsSpy : Bool)

/-- What a round makes of the registries and of the globals. -/
inductive VisitCases (r q : Registry) (g : Globals) (before : List Entry) (e : Entry)
    (after : List Entry) : Registry → Registry → Globals → TIndex → Prop where
  | disabled (h : e.enabled = false) :
      VisitCases r q g before e after (r.retire before e after) q
        { g with scheduler := g.scheduler.delNode e.descriptor } before.length
  | unreadable (h : e.enabled = true) (hready : ready g e = true)
      (hfail : (received g e).valread ≤ 0) :
      VisitCases r q g before e after (r.retire before e after) q
        { g with
          kernel := (received g e).kernel.close e.descriptor
          buffer := (received g e).buffer
          scheduler := g.scheduler.delNode e.descriptor } before.length
  | idle (h : e.enabled = true) (hready : ready g e = false) :
      VisitCases r q g before e after r q g (before.length + 1)
  | forwarded (h : e.enabled = true) (hready : ready g e = true)
      (hread : ¬ (received g e).valread ≤ 0) {before' after' others' : List Entry}
      {acts₁ acts₂ acts₃ : List Act} {k' : Kernel}
      (hbefore : Delivers (mayLose srcIsSpy g)
        (levelFrom medium srcIsSpy g e (received g e).power (frame (received g e)))
        (frame (received g e)) before acts₁ before')
      (hafter : Delivers (mayLose srcIsSpy g)
        (levelFrom medium srcIsSpy g e (received g e).power (frame (received g e)))
        (frame (received g e)) after acts₂ after')
      (hothers : Delivers false (fun _ => (received g e).power) (frame (received g e))
        q.entries acts₃ others')
      (hwrites : (received g e).kernel.Writes k' (acts₁ ++ acts₂ ++ acts₃)) :
      VisitCases r q g before e after (r.withEntries (before' ++ e :: after'))
        (q.withEntries others') { g with kernel := k', buffer := (received g e).buffer }
        (before.length + 1)

variable {r q : Registry} {g : Globals} {before after : List Entry} {e : Entry}

theorem remove_eq (h : r.entries = before ++ e :: after) :
    (Pass.mk r.server q.server g).remove srcIsSpy before.length e.descriptor =
      some ⟨(r.retire before e after).server, q.server,
        { g with
          kernel := Registry.release g.kernel e
          scheduler := g.scheduler.delNode e.descriptor }⟩ := by
  have hget : r.entries[before.length]? = some e := by
    rw [h]
    simp
  have hshown : (if srcIsSpy then r.server.getReferenceOnInfoWifiByIndex before.length
      else r.server.showInfoWifi before.length) = some e.info := by
    rw [Registry.getReferenceOnInfoWifiByIndex_server, Registry.showInfoWifi_server, hget]
    exact ite_self _
  simp only [remove, removeClient, hshown, Registry.closeClient_server g.kernel h]

theorem sendToSource_eq (h : r.entries = before ++ e :: after) (power : TPower)
    (data : List UInt8) :
    ∃ before' after' k' acts acts',
      (Pass.mk r.server q.server g).sendToSource medium srcIsSpy before.length power data =
          some ⟨(r.withEntries (before' ++ e :: after')).server, q.server,
            { g with kernel := k' }⟩ ∧
        Delivers (mayLose srcIsSpy g) (levelFrom medium srcIsSpy g e power data) data before acts
          before' ∧
        Delivers (mayLose srcIsSpy g) (levelFrom medium srcIsSpy g e power data) data after acts'
          after' ∧
        g.kernel.Writes k' (acts ++ acts') := by
  cases srcIsSpy with
  | true =>
    obtain ⟨before', after', k', acts, acts', hloop, hrest⟩ :=
      Registry.sendLoop_others h g.kernel fun j a _ => transmit_delivers power data j a
    refine ⟨before', after', k', acts, acts', ?_, hrest⟩
    simp only [sendToSource, if_true, CWifiServer.sendAllOtherClientsWithoutLoss, hloop]
  | false =>
    have hget : r.server.infoWifis[before.length]? = some e.info := by
      rw [Registry.getElem?_infoWifis, h]
      simp
    obtain ⟨before', after', k', acts, acts', hloop, hrest⟩ :=
      Registry.sendLoop_others h g.kernel fun j a ha =>
        transmitAttenuated_delivers medium g.canLostPackets g.scale e.info.toCCoordinate power data
          ha
    refine ⟨before', after', k', acts, acts', ?_, ?_⟩
    · simp [sendToSource, CWifiServer.sendAllOtherClients, hget, hloop]
    · simpa [mayLose, levelFrom] using hrest

theorem sendToOther_eq (r q : Registry) (g : Globals) (power : TPower) (data : List UInt8) :
    ∃ others' k' acts, (Pass.mk r.server q.server g).sendToOther power data =
        some ⟨r.server, (q.withEntries others').server, { g with kernel := k' }⟩ ∧
      Delivers false (fun _ => power) data q.entries acts others' ∧ g.kernel.Writes k' acts := by
  obtain ⟨others', k', acts, hloop, hrest⟩ :=
    Registry.sendLoop_all g.kernel fun j a _ => transmit_delivers power data j a
  refine ⟨others', k', acts, ?_, hrest⟩
  simp only [sendToOther, CWifiServer.sendAllClientsWithoutLoss, hloop]

/-- A round succeeds, and it is one of the four cases. -/
theorem visit_cases (h : r.entries = before ++ e :: after) :
    ∃ r' q' g' i',
      (Pass.mk r.server q.server g).visit medium srcIsSpy before.length =
          some (⟨r'.server, q'.server, g'⟩, i') ∧
        VisitCases medium srcIsSpy r q g before e after r' q' g' i' := by
  have hget : r.entries[before.length]? = some e := by
    rw [h]
    simp
  have hsocket : r.server.getSocketClient before.length = some e.descriptor := by
    rw [Registry.getSocketClient_server, hget]
    rfl
  have henable : r.server.isEnable before.length = some e.enabled := by
    rw [Registry.isEnable_server, hget]
    rfl
  cases henabled : e.enabled with
  | false =>
    refine ⟨_, _, _, _, ?_, VisitCases.disabled henabled⟩
    have hrelease : Registry.release g.kernel e = g.kernel := by simp [Registry.release, henabled]
    simp [visit, hsocket, henable, henabled, remove_eq srcIsSpy h, hrelease]
  | true =>
    cases hready : ready g e with
    | false =>
      refine ⟨_, _, _, _, ?_, VisitCases.idle henabled hready⟩
      rw [ready] at hready
      simp [visit, hsocket, henable, henabled, hready]
    | true =>
      have hready' := hready
      rw [ready] at hready'
      by_cases hread : (received g e).valread ≤ 0
      · refine ⟨_, _, _, _, ?_, VisitCases.unreadable henabled hready hread⟩
        have hread' := hread
        rw [received] at hread'
        simp [visit, hsocket, henable, henabled, hready', hread', remove_eq srcIsSpy h, received,
          Registry.release]
      · obtain ⟨before', after', k₁, acts₁, acts₂, hsource, hbefore, hafter, hwrites₁⟩ :=
          @sendToSource_eq medium srcIsSpy r q
            { g with kernel := (received g e).kernel, buffer := (received g e).buffer } before
            after e h (received g e).power (frame (received g e))
        obtain ⟨others', k₂, acts₃, hother, hothers, hwrites₂⟩ :=
          sendToOther_eq (r.withEntries (before' ++ e :: after')) q
            { g with kernel := k₁, buffer := (received g e).buffer } (received g e).power
            (frame (received g e))
        refine ⟨_, _, _, _, ?_, VisitCases.forwarded henabled hready hread hbefore hafter hothers
          (hwrites₁.trans hwrites₂)⟩
        have hread' := hread
        rw [received] at hread'
        simp only [received, frame] at hsource hother
        simp [visit, hsocket, henable, henabled, hready', hread', hsource, hother, received]

end Pass

end Vwifi
