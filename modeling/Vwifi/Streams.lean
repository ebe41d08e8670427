import Vwifi.Descriptors

/-!
# What the connected peers are sent

The bytes sent on a connection are whole frames, and a frame that was cut ends
the stream: its recipient is disabled on the spot and nothing is sent to it any
more. The length a sender announces is checked from above only, so this holds as
long as nobody announces less than a header.
-/

namespace Vwifi

set_option autoImplicit false

theorem sentOn_send_self (d : TDescriptor) (log : List Act) (data : List UInt8) (n : Nat) :
    sentOn d (log ++ [.send d data n]) = sentOn d log ++ data.take n := by
  rw [sentOn_append, List.foldl_cons, List.foldl_nil, sentStep, if_pos rfl]

theorem sentOn_send_of_ne {d d' : TDescriptor} (h : d' ≠ d) (log : List Act) (data : List UInt8)
    (n : Nat) : sentOn d (log ++ [.send d' data n]) = sentOn d log := by
  rw [sentOn_append, List.foldl_cons, List.foldl_nil, sentStep, if_neg h]

theorem sentOn_accept (d d' : TDescriptor) (log : List Act) :
    sentOn d (log ++ [.accept d']) = if d' = d then [] else sentOn d log := by
  rw [sentOn_append, List.foldl_cons, List.foldl_nil, sentStep]

theorem sentOn_close (d d' : TDescriptor) (log : List Act) :
    sentOn d (log ++ [.close d']) = sentOn d log := by
  rw [sentOn_append]
  rfl

theorem sentOn_closeActs (d : TDescriptor) (log : List Act) (es : List Entry) :
    sentOn d (log ++ Server.closeActs es) = sentOn d log := by
  induction es generalizing log with
  | nil => rw [Config.closeActs_nil, List.append_nil]
  | cons e es ih =>
    rw [Server.closeActs, List.filter_cons]
    split
    · have hcons : log ++ ((e :: es.filter Entry.enabled).map fun e => Act.close e.descriptor) =
          log ++ [.close e.descriptor] ++ Server.closeActs es := by
        rw [List.map_cons, List.append_assoc]
        rfl
      rw [hcons, ih, sentOn_close]
    · exact ih log

theorem sentOn_talk {d d' : TDescriptor} (h : d' ≠ d) (log : List Act) {m : List Act}
    (hm : ∀ a ∈ m, a.isTalk d') : sentOn d (log ++ m) = sentOn d log := by
  rw [sentOn_append]
  generalize sentOn d log = s
  induction m with
  | nil => rfl
  | cons a m ih =>
    have ha := hm a List.mem_cons_self
    have hstep : sentStep d s a = s := by
      cases a with
      | send d'' data taken =>
        have hd : d'' = d' := by simpa [Act.isTalk] using ha
        rw [hd, sentStep, if_neg h]
      | _ => simp_all [sentStep, Act.isTalk]
    rw [List.foldl_cons, hstep]
    exact ih fun a ha => hm a (List.mem_cons_of_mem _ ha)

/-! ## One frame for many recipients -/

/-- A frame handed to entries, whatever its level: each enabled entry gets it
from one call of `SendSignal` at most. -/
inductive Serves (data : List UInt8) : List Entry → List Act → List Entry → Prop where
  | nil : Serves data [] [] []
  | passed {e : Entry} {es es' : List Entry} {acts : List Act} (rest : Serves data es acts es') :
      Serves data (e :: es) acts (e :: es')
  | called {e : Entry} {es es' : List Entry} {acts calls : List Act} {power : TPower} {sent : Bool}
      (h : e.enabled = true) (hcall : SendCases e.descriptor power data sent calls)
      (rest : Serves data es acts es') :
      Serves data (e :: es) (calls ++ acts) ((if sent then e else e.disable) :: es')

theorem Delivers.serves {mayLose : Bool} {level : Entry → TPower} {data : List UInt8}
    {es es' : List Entry} {acts : List Act} (h : Delivers mayLose level data es acts es') :
    Serves data es acts es' := by
  induction h with
  | nil => exact Serves.nil
  | disabled _ _ ih => exact Serves.passed ih
  | lost _ _ _ _ ih => exact Serves.passed ih
  | called henabled hcall _ _ ih => exact Serves.called henabled hcall ih

theorem Serves.transfer {data : List UInt8} {es es' : List Entry} {acts : List Act}
    (h : Serves data es acts es') : ∀ a ∈ acts, a.isTransfer := by
  induction h with
  | nil => simp
  | passed _ ih => exact ih
  | called _ hcall _ ih =>
    intro a ha
    rcases List.mem_append.mp ha with ha | ha
    · exact hcall.isTransfer a ha
    · exact ih a ha

theorem Serves.append {data : List UInt8} {es es' fs fs' : List Entry} {acts acts' : List Act}
    (h : Serves data es acts es') (h' : Serves data fs acts' fs') :
    Serves data (es ++ fs) (acts ++ acts') (es' ++ fs') := by
  induction h with
  | nil => exact h'
  | passed _ ih => exact Serves.passed ih
  | called henabled hcall _ ih =>
    rw [List.append_assoc]
    exact Serves.called henabled hcall ih

/-- An enabled entry holds the descriptor. -/
def LiveIn (es : List Entry) (d : TDescriptor) : Prop :=
  ∃ e ∈ es, e.enabled = true ∧ e.descriptor = d

theorem LiveIn.weakened {es es' : List Entry} (h : List.Forall₂ Entry.Weakened es es')
    {d : TDescriptor} (hlive : LiveIn es' d) : LiveIn es d := by
  obtain ⟨e', he', henabled, hd⟩ := hlive
  obtain ⟨i, hi⟩ := List.getElem?_of_mem he'
  obtain ⟨hlen, hweak⟩ := List.forall₂_iff_get.mp h
  obtain ⟨hi', hget⟩ := List.getElem?_eq_some_iff.mp hi
  have hw := hweak i (hlen ▸ hi') hi'
  refine ⟨es[i], List.getElem_mem _, hw.enabled ?_, ?_⟩
  · rw [List.get_eq_getElem, hget]
    exact henabled
  · rw [← hd, ← hget]
    exact hw.descriptor.symm

theorem liveIn_cons {e : Entry} {es : List Entry} {d : TDescriptor} :
    LiveIn (e :: es) d ↔ (e.enabled = true ∧ e.descriptor = d) ∨ LiveIn es d := by
  simp [LiveIn]

theorem liveIn_append {es fs : List Entry} {d : TDescriptor} :
    LiveIn (es ++ fs) d ↔ LiveIn es d ∨ LiveIn fs d := by
  simp only [LiveIn, List.mem_append, or_and_right, exists_or]

theorem LiveIn.retire {before after : List Entry} {e : Entry} {d : TDescriptor}
    (h : LiveIn (before ++ after) d) : LiveIn (before ++ e :: after) d := by
  rw [liveIn_append] at h ⊢
  rw [liveIn_cons]
  exact h.imp_right Or.inr

theorem liveIn_middle {before after : List Entry} {e : Entry} {d : TDescriptor} :
    LiveIn (before ++ e :: after) d ↔
      (e.enabled = true ∧ e.descriptor = d) ∨ LiveIn (before ++ after) d := by
  rw [liveIn_append, liveIn_append, liveIn_cons]
  exact or_left_comm

theorem not_liveIn_of_holders {es : List Entry} {d : TDescriptor} (h : holders es d = 0) :
    ¬ LiveIn es d := by
  rintro ⟨e, he, _, rfl⟩
  have := holders_pos he
  omega

theorem Serves.weakened {data : List UInt8} {es es' : List Entry} {acts : List Act}
    (h : Serves data es acts es') : List.Forall₂ Entry.Weakened es es' := by
  induction h with
  | nil => exact List.Forall₂.nil
  | passed _ ih => exact List.Forall₂.cons (Entry.Weakened.refl _) ih
  | called henabled _ _ ih =>
    refine List.Forall₂.cons ?_ ih
    split
    · exact Entry.Weakened.refl _
    · exact ⟨rfl, rfl, fun _ => henabled⟩

/-- What one frame adds to the stream of a recipient that is enabled: nothing,
all of it, or a part of it, and then the recipient is not enabled any more. -/
inductive Adds (data : List UInt8) (enabled : Prop) : List UInt8 → Prop where
  | nothing : Adds data enabled []
  | whole (power : TPower) : Adds data enabled (power.toUInt8 :: data)
  | cut (power : TPower) (n : Nat) (hn : n < data.length + 1) (h : ¬ enabled) :
      Adds data enabled ((power.toUInt8 :: data).take n)

theorem sendCases_sent {d d' : TDescriptor} {power : TPower} {data : List UInt8} {sent : Bool}
    {calls : List Act} (h : SendCases d' power data sent calls) (log : List Act) :
    (d' ≠ d → sentOn d (log ++ calls) = sentOn d log) ∧
      (d' = d → ∃ bytes, sentOn d (log ++ calls) = sentOn d log ++ bytes ∧
        Adds data (sent = true) bytes) := by
  have hsplit : ∀ a b : Act, log ++ [a, b] = log ++ [a] ++ [b] := by
    intro a b
    rw [List.append_assoc]
    rfl
  constructor
  · intro hne
    cases h with
    | whole => rw [hsplit, sentOn_send_of_ne hne, sentOn_send_of_ne hne]
    | cut n hn => rw [hsplit, sentOn_send_of_ne hne, sentOn_send_of_ne hne]
    | nothing => rw [sentOn_send_of_ne hne]
  · rintro rfl
    cases h with
    | whole =>
      refine ⟨_, ?_, Adds.whole power⟩
      rw [hsplit, sentOn_send_self, sentOn_send_self, List.take_length, List.append_assoc]
      rfl
    | cut n hn =>
      refine ⟨_, ?_, Adds.cut power (n + 1) (Nat.succ_lt_succ hn) (by simp)⟩
      rw [hsplit, sentOn_send_self, sentOn_send_self, List.append_assoc]
      rfl
    | nothing =>
      refine ⟨[], ?_, Adds.nothing⟩
      rw [sentOn_send_self]
      rfl

/-- What a frame adds to one stream, its descriptor being held once at most. -/
theorem Serves.sent {data : List UInt8} {es es' : List Entry} {acts : List Act}
    (h : Serves data es acts es') (d : TDescriptor) (hone : holders es d ≤ 1) (log : List Act) :
    ∃ bytes, sentOn d (log ++ acts) = sentOn d log ++ bytes ∧
      (¬ LiveIn es d → bytes = []) ∧ Adds data (LiveIn es' d) bytes := by
  induction h generalizing log with
  | nil => exact ⟨[], by rw [List.append_nil, List.append_nil], fun _ => rfl, Adds.nothing⟩
  | @passed e es es' acts hrest ih =>
    rw [holders_cons] at hone
    obtain ⟨bytes, hsent, hquiet, hadds⟩ := ih (by omega) log
    refine ⟨bytes, hsent, fun hnot => hquiet fun h => hnot (liveIn_cons.mpr (Or.inr h)), ?_⟩
    by_cases hd : e.descriptor = d
    · rw [if_pos hd] at hone
      rw [hquiet (not_liveIn_of_holders (by omega))]
      exact Adds.nothing
    · have hiff : LiveIn (e :: es') d ↔ LiveIn es' d := by
        rw [liveIn_cons]
        exact or_iff_right fun h => hd h.2
      rwa [hiff]
  | @called e es es' acts calls power sent henabled hcall hrest ih =>
    rw [holders_cons] at hone
    obtain ⟨bytes, hsent, hquiet, hadds⟩ := ih (by omega) (log ++ calls)
    obtain ⟨hother, hself⟩ := @sendCases_sent d _ _ _ _ _ hcall log
    rw [← List.append_assoc]
    by_cases hd : e.descriptor = d
    · -- the calls for `e` are the only ones on `d`
      rw [if_pos hd] at hone
      have hnone : ¬ LiveIn es d := not_liveIn_of_holders (by omega)
      obtain ⟨bytes', hsent', hadds'⟩ := hself hd
      have hiff : LiveIn ((if sent then e else e.disable) :: es') d ↔ sent = true := by
        rw [liveIn_cons, or_iff_left fun h => hnone (h.weakened hrest.weakened)]
        cases sent
        · simp
        · simpa using ⟨henabled, hd⟩
      refine ⟨bytes', ?_, fun hnot => absurd (liveIn_cons.mpr (Or.inl ⟨henabled, hd⟩)) hnot, ?_⟩
      · rw [hsent, hquiet hnone, List.append_nil, hsent']
      · rwa [hiff]
    · have hd' : (if sent then e else e.disable).descriptor = e.descriptor := by
        cases sent <;> rfl
      have hiff : LiveIn ((if sent then e else e.disable) :: es') d ↔ LiveIn es' d := by
        rw [liveIn_cons, hd']
        exact or_iff_right fun h => hd h.2
      refine ⟨bytes, by rw [hsent, hother hd],
        fun hnot => hquiet fun h => hnot (liveIn_cons.mpr (Or.inr h)), ?_⟩
      rwa [hiff]

/-! ## Frames -/

/-- Whole frames, and after them possibly a part of one for a peer that is not
live any more. -/
def Streamed (live : Prop) (bytes : List UInt8) : Prop :=
  ∃ (fs : List Frame) (rest : List UInt8), bytes = fs.flatMap Frame.bytes ++ rest ∧
    (rest = [] ∨ ¬ live ∧ ∃ (f : Frame) (n : Nat), n < f.bytes.length ∧ rest = f.bytes.take n)

theorem Streamed.mono {live live' : Prop} {bytes : List UInt8} (h : Streamed live bytes)
    (hlive : live' → live) : Streamed live' bytes := by
  obtain ⟨fs, rest, hbytes, hrest⟩ := h
  refine ⟨fs, rest, hbytes, ?_⟩
  rcases hrest with hnil | ⟨hnot, hcut⟩
  · exact Or.inl hnil
  · exact Or.inr ⟨fun h => hnot (hlive h), hcut⟩

/-- The same message at another level is a frame as well. -/
theorem Frame.at_power (f : Frame) (power : TPower) :
    ∃ f' : Frame, f'.bytes = power.toUInt8 :: f.message :=
  ⟨{ f with power := power }, rfl⟩

theorem Streamed.adds {live live' : Prop} {s bytes data : List UInt8} (h : Streamed live s)
    (hlive : live' → live) (hquiet : ¬ live → bytes = []) (hadds : Adds data live' bytes)
    (hframe : ∃ f : Frame, f.message = data) : Streamed live' (s ++ bytes) := by
  by_cases hl : live
  · obtain ⟨fs, rest, rfl, hrest⟩ := h
    have hnil : rest = [] := by
      rcases hrest with hnil | ⟨hnot, _⟩
      · exact hnil
      · exact absurd hl hnot
    subst hnil
    obtain ⟨f, rfl⟩ := hframe
    rw [List.append_nil]
    cases hadds with
    | nothing => exact ⟨fs, [], rfl, Or.inl rfl⟩
    | whole power =>
      obtain ⟨f', hf'⟩ := f.at_power power
      refine ⟨fs ++ [f'], [], ?_, Or.inl rfl⟩
      rw [List.flatMap_append, List.flatMap_singleton, hf', List.append_nil]
    | cut power n hn hnot =>
      obtain ⟨f', hf'⟩ := f.at_power power
      refine ⟨fs, _, rfl, Or.inr ⟨hnot, f', n, ?_, by rw [hf']⟩⟩
      rw [hf', List.length_cons]
      exact hn
  · rw [hquiet hl, List.append_nil]
    exact h.mono hlive

/-- The stream of a sender that announces a message shorter than its header. -/
def runt : List UInt8 → Bool
  | [] => false
  | _ :: rest =>
    sizeofNlmsghdr ≤ rest.length ∧ 1 ≤ CWifi.nlmsgLen rest ∧ CWifi.nlmsgLen rest < sizeofNlmsghdr

/-- What the server forwards is a message of a frame. -/
theorem received_frame {g : Globals} {e : Entry} (hread : ¬ (Pass.received g e).valread ≤ 0)
    (hrunt : runt (g.kernel.supply e.descriptor) = false) :
    ∃ f : Frame, f.message = Pass.frame (Pass.received g e) := by
  have hcases : CWifi.RecvCases g.kernel e.descriptor (Pass.received g e) :=
    CWifi.recvSignal_cases g.kernel e.descriptor 0 g.buffer
  cases hcases with
  | failed h _ =>
    rw [h] at hread
    exact absurd (by decide) hread
  | stored b rest supply header valread bounded arrived power message left =>
    rw [supply] at hrunt
    have hlong : (sizeofNlmsghdr : Int) ≤ (Pass.received g e).valread := by
      have hnot := of_decide_eq_false hrunt
      by_contra hlt
      exact hnot ⟨header, by omega, by omega⟩
    have hlen : (rest.take (Pass.received g e).valread.toNat).length =
        (Pass.received g e).valread.toNat := by
      rw [List.length_take]
      omega
    have htake : (rest.take (Pass.received g e).valread.toNat).take 4 = rest.take 4 := by
      have hfour : 4 ≤ (Pass.received g e).valread.toNat := by
        simp only [sizeofNlmsghdr] at hlong
        omega
      rw [List.take_take, Nat.min_eq_left hfour]
    rw [Pass.frame, message]
    refine ⟨⟨0, _, ?_, ?_, ?_⟩, rfl⟩
    · rw [CWifi.nlmsgLen_congr htake, hlen, ← valread]
      omega
    · rw [hlen]
      omega
    · rw [hlen]
      omega

namespace Config

/-- An enabled entry of a registry holds the descriptor. -/
def Live (c : Config) (d : TDescriptor) : Prop :=
  LiveIn (c.server.wifiServer.entries ++ c.server.wifiServerSPY.entries) d

/-- The step is a round of a pass that reads a runt. -/
def readsRunt (c : Config) : Bool :=
  match c.phase with
  | .forward srcIsSpy i =>
    match (c.server.registry srcIsSpy).entries[i]? with
    | none => false
    | some e =>
      e.enabled && c.server.hasAction e.descriptor && runt (c.server.kernel.supply e.descriptor)
  | _ => false

def LiveOf (v : Bool → Registry) (d : TDescriptor) : Prop :=
  LiveIn (v false).entries d ∨ LiveIn (v true).entries d

/-- What a step does to the stream of one descriptor. -/
inductive StreamStep (c : Config) (d : TDescriptor) (live live' : Prop) (log log' : List Act) :
    Prop where
  | fresh (hsent : sentOn d log' = []) (haccepts : accepts d log' ≠ accepts d log)
  | control (hclosed : isOpen d log' = false) (haccepts : accepts d log' ≠ accepts d log)
  | quiet (hsent : sentOn d log' = sentOn d log) (hlive : live' → live)
      (hopen : isOpen d log' = true → isOpen d log = true)
  | served {data bytes : List UInt8} (hsent : sentOn d log' = sentOn d log ++ bytes)
      (hquiet : ¬ live → bytes = []) (hadds : Adds data live' bytes) (hlive : live' → live)
      (hopen : isOpen d log' = isOpen d log) (hcloses : closes d log' = closes d log)
      (hframe : c.readsRunt = false → ∃ f : Frame, f.message = data)

variable {medium : Medium} {c c' : Config} {l : Label} {v v' : Bool → Registry}

theorem Sees.live (hv : c.Sees v) (d : TDescriptor) : c.Live d ↔ LiveOf v d := by
  rw [Live, hv.held, liveIn_append]
  rfl

theorem liveOf_both (v : Bool → Registry) (b : Bool) (d : TDescriptor) :
    LiveOf v d ↔ LiveIn (v b).entries d ∨ LiveIn (v !b).entries d := by
  cases b
  · rfl
  · exact or_comm

theorem liveOf_pass (v : Bool → Registry) (b : Bool) (r q : Registry) (d : TDescriptor) :
    LiveOf (Function.update (Function.update v b r) (!b) q) d ↔
      LiveIn r.entries d ∨ LiveIn q.entries d := by
  cases b
  · rfl
  · exact or_comm

theorem isOpen_of_opens {d : TDescriptor} {log log' : List Act} (h : opens d log' ≤ opens d log) :
    isOpen d log' = true → isOpen d log = true := by
  rw [opens, opens] at h
  cases hlog : isOpen d log with
  | true => exact fun _ => rfl
  | false =>
    intro hopen
    rw [hlog, hopen] at h
    cases h

theorem visit_stream {srcIsSpy : Bool} {before after : List Entry} {e : Entry} {r q : Registry}
    {g' : Globals} {i : TIndex} (hphase : c.phase = .forward srcIsSpy before.length)
    (hv : c.Sees v) (hl : Ledger v c.server.kernel.log)
    (hentries : (v srcIsSpy).entries = before ++ e :: after)
    (h : Pass.VisitCases medium srcIsSpy (v srcIsSpy) (v !srcIsSpy) c.server.globals before e after
      r q g' i) (d : TDescriptor) :
    StreamStep c d (LiveOf v d)
      (LiveOf (Function.update (Function.update v srcIsSpy r) (!srcIsSpy) q) d)
      c.server.kernel.log g'.kernel.log := by
  obtain ⟨reads, hreads, hisRead⟩ :=
    (CWifi.recvSignal_readsFrom c.server.globals.kernel e.descriptor 0
      c.server.globals.buffer).reads
  rw [liveOf_both v srcIsSpy, liveOf_pass, hentries]
  cases h with
  | disabled _ =>
    exact StreamStep.quiet rfl (Or.imp_left LiveIn.retire) id
  | unreadable _ _ _ =>
    have hlog : c.server.globals.kernel.log ++ reads ++ [.close e.descriptor] =
        ((Pass.received c.server.globals e).kernel.close e.descriptor).log := by
      rw [← hreads]
      rfl
    refine StreamStep.quiet ?_ (Or.imp_left LiveIn.retire) (isOpen_of_opens ?_)
    · rw [← hlog, sentOn_close, sentOn_reads d _ hisRead]
      rfl
    · rw [← hlog, opens_close,
        opens_transfer d _ fun a ha => Act.isTransfer_of_isRead (hisRead a ha)]
      split
      · exact Nat.zero_le _
      · exact Nat.le_refl _
  | idle _ _ => exact StreamStep.quiet rfl (fun h => hentries ▸ h) id
  | @forwarded henabled hready hread before' after' others' acts₁ acts₂ acts₃ k hbefore hafter
      hothers hwrites =>
    have hserves := (hbefore.serves.append hafter.serves).append hothers.serves
    have hrecipients : holders (before ++ after ++ (v !srcIsSpy).entries) d +
        (if e.descriptor = d then 1 else 0) = holdersOf v d := by
      rw [holdersOf_both v srcIsSpy, hentries, holders_append, holders_append, holders_append,
        holders_cons]
      omega
    have hle := (hl d).2
    have hone := opens_le_one d c.server.kernel.log
    obtain ⟨bytes, hsent, hquiet, hadds⟩ :=
      hserves.sent d (by omega) (c.server.globals.kernel.log ++ reads)
    have hlog : k.log = c.server.kernel.log ++ (reads ++ (acts₁ ++ acts₂ ++ acts₃)) := by
      rw [hwrites.log]
      exact (congrArg (· ++ (acts₁ ++ acts₂ ++ acts₃)) hreads).trans (List.append_assoc _ _ _)
    have hacts : ∀ a ∈ reads ++ (acts₁ ++ acts₂ ++ acts₃), a.isTransfer := by
      intro a ha
      rcases List.mem_append.mp ha with ha | ha
      · exact Act.isTransfer_of_isRead (hisRead a ha)
      · exact hserves.transfer a ha
    have hsent' : sentOn d k.log = sentOn d c.server.kernel.log ++ bytes := by
      rw [hlog, ← List.append_assoc, Server.kernel, hsent, sentOn_reads d _ hisRead]
    have hopen : isOpen d k.log = isOpen d c.server.kernel.log := by
      rw [hlog, isOpen_transfer d _ hacts]
    simp only [Registry.withEntries, liveIn_middle]
    by_cases hd : e.descriptor = d
    · -- the sender itself is served nothing
      rw [if_pos hd] at hrecipients
      have hnone := not_liveIn_of_holders (show holders (before ++ after ++
        (v !srcIsSpy).entries) d = 0 by omega)
      rw [hquiet hnone, List.append_nil] at hsent'
      exact StreamStep.quiet hsent' (fun _ => Or.inl (Or.inl ⟨henabled, hd⟩)) fun h => hopen ▸ h
    · have hnot : ¬ (e.enabled = true ∧ e.descriptor = d) := fun h => hd h.2
      simp only [or_iff_right hnot]
      rw [← liveIn_append, ← liveIn_append]
      refine StreamStep.served hsent' hquiet hadds (LiveIn.weakened hserves.weakened) hopen ?_ ?_
      · rw [hlog, closes_append, closes_transfer d hacts, Nat.add_zero]
      · intro hrunt
        have hget : (v srcIsSpy).entries[before.length]? = some e := by
          rw [hentries]
          simp
        have haction : c.server.hasAction e.descriptor = true := hready
        simp only [readsRunt, hphase, hv.registry, hget, henabled, haction, Bool.true_and] at hrunt
        exact received_frame hread hrunt

theorem liveIn_sockets {es es' : List Entry} {d : TDescriptor}
    (h : es'.map Entry.socket = es.map Entry.socket) (hlive : LiveIn es' d) : LiveIn es d := by
  obtain ⟨e', he', henabled, hd⟩ := hlive
  have hmem : e'.socket ∈ es.map Entry.socket := h ▸ List.mem_map_of_mem he'
  obtain ⟨e, he, heq⟩ := List.mem_map.mp hmem
  refine ⟨e, he, ?_, ?_⟩
  · rw [Entry.enabled, heq]
    exact henabled
  · rw [Entry.descriptor, heq]
    exact hd

theorem Change.live {r r' : Registry} (h : Change r none r') {d : TDescriptor}
    (hlive : LiveIn r'.entries d) : LiveIn r.entries d := by
  cases h with
  | weakened h => exact hlive.weakened h
  | retired h =>
    rw [h]
    exact LiveIn.retire hlive
  | coordinate w =>
    unfold Registry.storeCoordinate at hlive
    split at hlive
    · exact liveIn_sockets (Registry.modify_socket _ _ _) hlive
    · split at hlive <;> exact hlive
  | name cid name h =>
    unfold Registry.storeName at h
    split at h
    · cases h
      exact liveIn_sockets (Registry.modify_socket _ _ _) hlive
    · obtain ⟨i, _, rfl⟩ := Option.map_eq_some_iff.mp h
      exact hlive
  | entryName i name => exact liveIn_sockets (Registry.modify_socket _ _ _) hlive
  | cleared =>
    obtain ⟨e, he, _⟩ := hlive
    cases he

theorem step_stream (hv : c.Sees v) (hl : Ledger v c.server.kernel.log)
    (h : StepCases medium c l v c' v') (d : TDescriptor) :
    StreamStep c d (LiveOf v d) (LiveOf v' d) c.server.kernel.log c'.server.kernel.log := by
  cases h with
  | select r hphase hl => exact StreamStep.quiet rfl id id
  | skip hskip hl => exact StreamStep.quiet rfl id id
  | @accept _ isSpy inc cid r haccept hunused hconnect =>
    have hlog : (c.server.connected isSpy inc r).kernel.log =
        c.server.kernel.log ++ [.accept inc.descriptor] := rfl
    rw [hlog]
    by_cases hd : inc.descriptor = d
    · refine StreamStep.fresh ?_ ?_
      · rw [sentOn_accept, if_pos hd]
      · rw [accepts_append, accepts_accept, if_pos hd]
        omega
    · refine StreamStep.quiet ?_ ?_ (isOpen_of_opens ?_)
      · rw [sentOn_accept, if_neg hd]
      · obtain ⟨es, w, hentries, _, hweak⟩ := connect_entries hconnect
        have hnew : LiveIn r.entries d → LiveIn (v isSpy).entries d := by
          rw [hentries, liveIn_append, liveIn_cons]
          rintro (h | ⟨_, h⟩ | ⟨_, h, _⟩)
          · exact h.weakened hweak
          · exact absurd h hd
          · cases h
        rw [liveOf_both v isSpy, liveOf_both _ isSpy, Function.update_self,
          Function.update_of_ne (by simp)]
        exact Or.imp_left hnew
      · rw [opens_accept, if_neg hd]
  | @order inc stack s' _ hphase hlabel hready hunused hreceived =>
    obtain ⟨acts, hlog, hacts⟩ := hreceived.log
    by_cases hd : inc.descriptor = d
    · refine StreamStep.control ?_ ?_
      · have hzero : opens d s'.kernel.log = 0 := by rw [hlog, opens_close, if_pos hd]
        rw [opens] at hzero
        cases hopen : isOpen d s'.kernel.log with
        | false => rfl
        | true =>
          rw [hopen] at hzero
          cases hzero
      · rw [hlog, accepts_append, accepts_append, accepts_append, accepts_append, accepts_accept,
          if_pos hd]
        omega
    · refine StreamStep.quiet ?_ ?_ (isOpen_of_opens ?_)
      · rw [hlog, sentOn_close, sentOn_closeActs, sentOn_talk hd _ hacts, sentOn_accept, if_neg hd]
      · exact Or.imp (ordered_change hreceived.ordered false).live
          (ordered_change hreceived.ordered true).live
      · rw [hlog, opens_close, if_neg hd, opens_closeActs, opens_transfer d _
          (fun a ha => Act.isTransfer_of_isTalk (hacts a ha)), opens_accept, if_neg hd]
        split
        · exact Nat.le_refl _
        · exact Nat.zero_le _
  | @visit srcIsSpy before after e r q g i hphase hlabel hentries hcases =>
    have hkernel : (c.server.withPass srcIsSpy ⟨r.server, q.server, g⟩).kernel = g.kernel :=
      withPass_kernel _ _ _
    rw [hkernel]
    exact visit_stream hphase hv hl hentries hcases d

/-! ## Runs -/

/-- Every open connection was sent whole frames, and a cut one at the end only
when it is not live any more. -/
def StreamsFramed (c : Config) : Prop :=
  ∀ d, isOpen d c.server.kernel.log = true → Streamed (c.Live d) (sentOn d c.server.kernel.log)

/-- A connection that is not live stays so and gets no more bytes, and none is
sent to a connection in the step that closes it. -/
def SilentWhenDisabled (medium : Medium) (c : Config) (l : Label) : Prop :=
  ∀ c', step medium c l = some c' → ∀ d,
    accepts d c'.server.kernel.log = accepts d c.server.kernel.log →
      (¬ c.Live d → ¬ c'.Live d ∧ sentOn d c'.server.kernel.log = sentOn d c.server.kernel.log) ∧
        (closes d c'.server.kernel.log ≠ closes d c.server.kernel.log →
          sentOn d c'.server.kernel.log = sentOn d c.server.kernel.log)

theorem step_streamsFramed (hv : c.Sees v) (hl : Ledger v c.server.kernel.log)
    (h : step medium c l = some c') (hrunt : c.readsRunt = false) (hframed : c.StreamsFramed) :
    c'.StreamsFramed := by
  obtain ⟨v', hv', hcases⟩ := step_cases hv h
  intro d hopen'
  have hstream := step_stream hv hl hcases d
  rw [← hv.live, ← hv'.live] at hstream
  cases hstream with
  | fresh hsent _ => exact ⟨[], [], hsent, Or.inl rfl⟩
  | control hclosed _ =>
    rw [hclosed] at hopen'
    cases hopen'
  | quiet hsent hlive hopen =>
    rw [hsent]
    exact (hframed d (hopen hopen')).mono hlive
  | served hsent hquiet hadds hlive hopen _ hframe =>
    rw [hsent]
    exact (hframed d (hopen ▸ hopen')).adds hlive hquiet hadds (hframe hrunt)

theorem step_silentWhenDisabled (hv : c.Sees v) (hl : Ledger v c.server.kernel.log) :
    SilentWhenDisabled medium c l := by
  intro c' h d haccepts
  obtain ⟨v', hv', hcases⟩ := step_cases hv h
  have hstream := step_stream hv hl hcases d
  rw [← hv.live, ← hv'.live] at hstream
  cases hstream with
  | fresh _ hne => exact absurd haccepts hne
  | control _ hne => exact absurd haccepts hne
  | quiet hsent hlive _ => exact ⟨fun hnot => ⟨fun h => hnot (hlive h), hsent⟩, fun _ => hsent⟩
  | served hsent hquiet _ hlive _ hcloses _ =>
    refine ⟨fun hnot => ⟨fun h => hnot (hlive h), ?_⟩, fun hne => absurd hcloses hne⟩
    rw [hsent, hquiet hnot, List.append_nil]

/-- In a run in which no runt is read, every connection is sent whole frames, and
nothing after a cut one. -/
theorem streams_framed (medium : Medium) (setup : Setup) (ls : List Label)
    (hrunt : Lts.Steps (step medium) (fun c _ => c.readsRunt = false) (init setup) ls) :
    Lts.States (step medium) StreamsFramed (init setup) ls ∧
      Lts.Steps (step medium) (SilentWhenDisabled medium) (init setup) ls := by
  have hinit : (init setup).StreamsFramed := by
    intro d hopen
    cases hopen
  have hstates : Lts.States (step medium)
      (fun c => c.StreamsFramed ∧ ∃ v, c.Sees v ∧ Ledger v c.server.kernel.log)
        (init setup) ls := by
    refine Lts.states_of_steps ?_
      ⟨hinit, initialView, init_sees setup, init_ledger setup⟩ hrunt
    rintro c l c' ⟨hframed, v, hv, hl⟩ hsafe h
    obtain ⟨v', hv', hcases⟩ := step_cases hv h
    obtain ⟨removed, hflow, _⟩ := step_flow hv hcases
    exact ⟨step_streamsFramed hv hl h hsafe hframed, v', hv', hflow.ledger hl⟩
  refine ⟨hstates.mono fun _ h => h.1, Lts.steps_of_states ?_ hstates⟩
  rintro c l c' ⟨_, v, hv, hl⟩ _ _
  exact step_silentWhenDisabled hv hl

theorem streams_framed_two :
    Lts.States (step Medium.uniform) StreamsFramed (init Setup.tcp)
      (Label.joins ⟨10, [236 :: 16 :: List.replicate 15 0], []⟩ ⟨0x020010AC, 0⟩ 3 ++
        Label.joins ⟨11, [], [1, 16]⟩ ⟨0x030010AC, 0⟩ 4 ++ Label.speaks 10 4) :=
  (streams_framed Medium.uniform Setup.tcp _
    (Lts.steps_of_stepsCheck (q := fun c _ => !c.readsRunt) (fun _ _ h => by simpa using h)
      (by decide +kernel))).1

/-- A sender that announces one byte: a live client is left with two bytes that
no frame begins with. -/
theorem streams_framed_fails :
    ¬ Lts.States (step Medium.uniform) StreamsFramed (init Setup.tcp)
      (Label.joins ⟨10, [236 :: 1 :: List.replicate 15 0], []⟩ ⟨0x020010AC, 0⟩ 3 ++
        Label.joins ⟨11, [], [1, 1]⟩ ⟨0x030010AC, 0⟩ 4 ++ Label.speaks 10 1) := by
  intro h
  have hrun : (Lts.run (step Medium.uniform) (init Setup.tcp)
      (Label.joins ⟨10, [236 :: 1 :: List.replicate 15 0], []⟩ ⟨0x020010AC, 0⟩ 3 ++
        Label.joins ⟨11, [], [1, 1]⟩ ⟨0x030010AC, 0⟩ 4 ++ Label.speaks 10 1)).map
      (fun c => (isOpen 11 c.server.kernel.log, sentOn 11 c.server.kernel.log,
        c.server.wifiServer.entries.any fun e => e.enabled && e.descriptor == 11)) =
      some (true, [236, 1], true) := by
    decide +kernel
  obtain ⟨c, hc, hvalues⟩ := Option.map_eq_some_iff.mp hrun
  obtain ⟨hopen, hvalues⟩ := Prod.mk.inj hvalues
  obtain ⟨hsent, hlive⟩ := Prod.mk.inj hvalues
  obtain ⟨fs, rest, hbytes, hrest⟩ := h.last hc 11 hopen
  rw [hsent] at hbytes
  have hfs : fs = [] := by
    cases fs with
    | nil => rfl
    | cons f fs =>
      have hlen := congrArg List.length hbytes
      have hcomplete := f.complete
      rw [List.flatMap_cons, List.append_assoc, List.length_append, Frame.bytes_length] at hlen
      simp only [sizeofNlmsghdr, List.length_cons, List.length_nil] at hlen hcomplete
      omega
  subst hfs
  rcases hrest with rfl | ⟨hnot, _⟩
  · cases hbytes
  · obtain ⟨e, he, hboth⟩ := List.any_eq_true.mp hlive
    rw [Bool.and_eq_true, beq_iff_eq] at hboth
    exact hnot ⟨e, List.mem_append_left _ he, hboth⟩

end Config

end Vwifi
