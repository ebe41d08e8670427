import Vwifi.Handling

/-!
# An order reads from its own connection only

Whatever the order is and whatever becomes of it, the bytes that the other peers
are still to deliver stay where they are.
-/

namespace Vwifi

set_option autoImplicit false

namespace Server

/-- What the other peers are to deliver is the same in `s` and `s'`. -/
def Spares (d : TDescriptor) (s s' : Server) : Prop :=
  ∀ d', d' ≠ d → s'.kernel.inbox d' = s.kernel.inbox d'

variable {d : TDescriptor} {s s' s'' : Server}

theorem Spares.refl (d : TDescriptor) (s : Server) : Spares d s s := fun _ _ => rfl

theorem Spares.trans (h : Spares d s s') (h' : Spares d s' s'') : Spares d s s'' :=
  fun d' hd => (h' d' hd).trans (h d' hd)

theorem read_spares {v : Var} {r : Option Var} (h : s.read d v = (r, s')) : Spares d s s' := by
  have hkernel : s' = s.withKernel (s.kernel.recv d v.bytes.length).2 := by
    rw [read_eq] at h
    exact (congrArg Prod.snd h).symm
  subst hkernel
  intro d' hd
  exact Function.update_of_ne hd _ _

theorem Sends.spares (h : Sends d s s') : Spares d s s' := fun d' _ => congrFun h.inbox d'

theorem send_spares (s : Server) (d : TDescriptor) (data : List UInt8) :
    Spares d s (s.send d data).2 := (send_sends s d data).spares

theorem look_spares (s : Server) (d : TDescriptor) (v : Var) (needed : Nat) :
    Spares d s (s.look v needed) := fun _ _ => rfl

theorem sendFields_spares (fields : List (List UInt8)) (s : Server) :
    Spares d s (sendFields d fields s) := by
  rw [sendFields_eq]
  exact (sendAll_sends d fields s).spares

theorem storeCoordinate_spares {cid : TCID} {coo : CCoordinate}
    (h : s.storeCoordinate cid coo = some s') : Spares d s s' := by
  unfold storeCoordinate at h
  split at h
  · cases h
    exact Spares.refl d s
  · split at h
    · cases h
      exact Spares.refl d s
    · split at h
      · cases h
      · obtain ⟨_, _, rfl⟩ := Option.map_eq_some_iff.mp h
        exact Spares.refl d s

theorem storeName_spares (s : Server) (cid : TCID) (name : CString) :
    Spares d s (s.storeName cid name) := by
  unfold storeName
  split
  · exact Spares.refl d s
  · split
    · exact Spares.refl d s
    · split <;> exact Spares.refl d s

theorem changeCoordinate_spares {stack : Stack} (h : changeCoordinate stack d s = some s') :
    Spares d s s' := by
  unfold changeCoordinate at h
  split at h
  · cases h
    exact read_spares ‹_›
  · have h₁ := @read_spares d _ _ _ _ ‹_›
    split at h
    · cases h
      exact h₁.trans (read_spares ‹_›)
    · have h₂ := h₁.trans (read_spares ‹_›)
      dsimp only at h
      split at h
      · cases h
        exact h₂.trans (look_spares _ d _ 4)
      · exact ((h₂.trans (look_spares _ d _ 4)).trans (look_spares _ d _ 12)).trans
          (storeCoordinate_spares h)

theorem setName_spares {stack : Stack} (h : setName stack d s = some s') : Spares d s s' := by
  unfold setName at h
  split at h
  · cases h
    exact read_spares ‹_›
  · have h₁ := @read_spares d _ _ _ _ ‹_›
    split at h
    · cases h
      exact h₁.trans (read_spares ‹_›)
    · have h₂ := h₁.trans (read_spares ‹_›)
      split at h
      · cases h
        exact h₂.trans (read_spares ‹_›)
      · have h₃ := h₂.trans (read_spares ‹_›)
        dsimp only at h
        split at h
        · cases h
          exact h₃.trans (look_spares _ d _ 4)
        · split at h
          · cases h
          · cases h
            exact h₃.trans (storeName_spares _ _ _)

theorem sendDistance_spares (medium : Medium) (stack : Stack) :
    Spares d s (sendDistance medium stack d s) := by
  unfold sendDistance
  split
  · exact read_spares ‹_›
  · have h₁ := @read_spares d _ _ _ _ ‹_›
    split
    · exact h₁.trans (read_spares ‹_›)
    · have h₂ := h₁.trans (read_spares ‹_›)
      dsimp only
      split
      · exact h₂.trans (send_spares _ d _)
      · split
        · exact h₂.trans (send_spares _ d _)
        · exact h₂.trans (sendFields_spares _ _)

theorem foldl_release_inbox (es : List Entry) (k : Kernel) :
    (es.foldl Registry.release k).inbox = k.inbox := by
  induction es generalizing k with
  | nil => rfl
  | cons e es ih =>
    rw [List.foldl_cons, ih, Registry.release]
    split <;> rfl

theorem serve_spares {medium : Medium} {stack : Stack} {order : TOrder} {v : Bool → Registry}
    (hv : s.Views v) (h : s.serve medium stack d order = some s') : Spares d s s' := by
  cases order with
  | torderNo =>
    cases h
    exact Spares.refl d s
  | torderList =>
    rw [serve, sendList_eq (hv true) (hv false), Option.some.injEq] at h
    subst h
    exact (sendAll_sends d _ s).spares
  | torderShow =>
    cases h
    exact sendFields_spares _ s
  | torderChangeCoordinate => exact changeCoordinate_spares h
  | torderSetName => exact setName_spares h
  | torderPacketLoss =>
    rw [serve, changePacketLoss] at h
    split at h <;> rename_i heq <;> cases h
    · exact read_spares heq
    · exact fun d' hd => read_spares heq d' hd
  | torderStatus =>
    cases h
    exact sendFields_spares _ s
  | torderDistanceBetweenCid =>
    cases h
    exact sendDistance_spares medium stack
  | torderSetScale =>
    rw [serve, setScale] at h
    split at h <;> rename_i heq <;> cases h
    · exact read_spares heq
    · exact fun d' hd => read_spares heq d' hd
  | torderCloseAllClient =>
    rw [serve, closeAllClient_eq hv] at h
    cases h
    intro d' _
    exact congrFun ((foldl_release_inbox _ _).trans (foldl_release_inbox _ _)) d'

theorem receiveOrder_spares {medium : Medium} {stack : Stack} {c : Incoming} {v : Bool → Registry}
    (h : s.receiveOrder medium stack c = some s') (hv : s.Views v) (hctrl : s.ctrlSockets = []) :
    Spares c.descriptor s s' := by
  obtain ⟨order, s₁, s₂, horder, hserve, rfl⟩ := receiveOrder_serve h hv hctrl
  have haccept : Spares c.descriptor s (s.acceptCtrlClient c) :=
    fun d' hd => Function.update_of_ne hd _ _
  have hget : Spares c.descriptor (s.acceptCtrlClient c) s₁ := by
    unfold getOrder at horder
    split at horder
    · cases horder
      exact Spares.refl _ _
    · split at horder <;> rename_i heq <;> cases horder
      · exact read_spares heq
      · exact fun d' hd => read_spares heq d' hd
  have hv₁ : s₁.Views v := (getOrder_talks horder).views hv
  have hserved := serve_spares hv₁ hserve
  exact fun d' hd => ((haccept.trans hget).trans hserved) d' hd

end Server

end Vwifi
