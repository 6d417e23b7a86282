/-
The outline of a connection: what its thread knows at each point of its program.

`Plain` lists the accesses a connection makes whatever it read before; the others, an update of a resource, the end of a
dispatch, a frame to a peer and a report of the coordinator's own, rest on something that was read earlier. An outline says
what that is, and `Checked` is what has to be shown of it, access by access. The walk through the handlers is made once.

- `safe_serve`: a checked outline makes every turn of a connection safe.
- `outline_run`: so in every interleaving every access meets its condition.
-/
import FaultContainment.Sessions.Handlers

namespace FaultContainment.Sessions

open FaultContainment.Lib FaultContainment.Ids FaultContainment.Enums FaultContainment.Records FaultContainment.Engine
open FaultContainment.Persistence FaultContainment.Protocol FaultContainment.Coordinator FaultContainment.Transport
open FaultContainment.OperatorReports FaultContainment.Lib.Threads
open FaultContainment.Answers (Socket Sent)
open FaultContainment.Dispatching (Session)

/-! ## The vocabulary of a connection -/

/-- where a connection is: it serves frames, or it has ended and its thread finishes -/
inductive Phase where
  | serving (session : Session)
  | leaving (session : Session)

/-- what the thread of a connection does without resting on an earlier look -/
inductive Plain (own : Socket) : Phase → Deed → Prop where
  | look (φ : Phase) : Plain own φ .look
  | append (φ : Phase) (sequence : ℕ) (record : Bytes) : Plain own φ (.append sequence record)
  | failure (φ : Phase) (e : Error) : Plain own φ (.locked .coordinator (.persistenceFault e))
  | reply (session : Session) {kind : MessageKind} {payload frame : Bytes} (hkind : kind ≠ .actionDispatch)
      (hframe : encodeFrame kind payload = .ok frame) : Plain own (.serving session) (.send own frame)
  | register (session : Session) (m : HelloMessage) :
      Plain own (.serving session) (.locked .peer (.registerWorker m.worker m.boot m.endpoint m.sequence))
  | evidence (session : Session) (id : ResourceId) (expected : ResourceGeneration) (freshness : EvidenceFreshness)
      (sequence : EvidenceSequence) (mechanism : ContainmentMechanism) (source : Text) : Plain own (.serving session)
        (.locked .peer (.publishResourceEvidence id expected freshness sequence mechanism source))
  | report (session : Session) (m : FaultReportMessage) (hdone : session.helloDone = true) (hboot : m.boot = session.boot) :
      Plain own (.serving session) (.locked .peer (.publishFault (reportedEvidence m)))
  | ack (session : Session) (ack : ActionAcknowledgment) (hdone : session.helloDone = true) :
      Plain own (.serving session) (.locked .peer (.recordActionAck ack))
  | result (session : Session) (result : ActionResult) (hdone : session.helloDone = true) :
      Plain own (.serving session) (.locked .peer (.recordActionResult result))
  | lost (session : Session) (detail : Text) (time : UInt64) (hdone : session.helloDone = true) :
      Plain own (.leaving session) (.locked .coordinator (.authorityLost session.worker session.boot detail time))
  | observed (session : Session) (kind : FaultKind) (subject : ResourceId) (generation : ResourceGeneration)
      (epoch : CoordinatorEpoch) (time : UInt64) (detail : Text) :
      Plain own (.leaving session) (.locked .coordinator (.publishFault (lossEvidence kind subject generation epoch time detail)))
  | noted (session : Session) (key : WorkerKey) (fault : FaultId) :
      Plain own (.leaving session) (.locked .coordinator (.noteAuthorityLoss key fault))
  | authorize (φ : Phase) (id : FaultId) (expected : FaultGeneration) :
      Plain own φ (.locked .coordinator (.authorizeContainment id expected))
  | dispatch (φ : Phase) (generation : ContainmentGeneration) :
      Plain own φ (.locked .coordinator (.dispatchBegin generation true))

/-- what a control request does: sections of its own, a reply, and polls -/
inductive Operates (own : Socket) : Deed → Prop where
  | look : Operates own .look
  | append (sequence : ℕ) (record : Bytes) : Operates own (.append sequence record)
  | failure (e : Error) : Operates own (.locked .coordinator (.persistenceFault e))
  | command (op : Op) : Operates own (.locked .operator op)
  | reply {kind : MessageKind} {payload frame : Bytes} (hkind : kind ≠ .actionDispatch)
      (hframe : encodeFrame kind payload = .ok frame) : Operates own (.send own frame)
  | poll (peer : Socket) {frame : Bytes} (hframe : encodeFrame .queryRequest [] = .ok frame) : Operates own (.send peer frame)

/-- control requests do nothing else -/
def Controls (control : Socket → Bytes → Program Unit) : Prop := ∀ own payload, (control own payload).All (Operates own)

/-! ## Outlines -/

/-- what is known where: between accesses, of a record that was read without a fence, of the connection an action is sent to, of
an attempt that was made, of an action the coordinator answers for, and of a connection that is closed -/
structure Outline where
  knows : Phase → Hub → Prop
  unfenced : ResourceRecord → Hub → Prop := fun _ _ => True
  routed : ContainmentAction → Socket → Hub → Prop := fun _ _ _ => True
  attempted : Attempt → Hub → Prop := fun _ _ => True
  answers : ActionId → ContainmentAction → Hub → Prop := fun _ _ _ => True
  closed : Hub → Prop := fun _ => True

/-- what neither the steps of the others nor those of the thread itself disturb -/
def Fixed (T : Terms Deed Weather Hub) (S : Hub → Prop) : Prop :=
  ∀ s t, S s → T.rely s t ∨ T.guarantee s t → S t

/-- what has to be shown of an outline -/
structure Checked (own : Socket) (T : Terms Deed Weather Hub) (o : Outline) : Prop where
  lawful : T.Lawful
  stable : ∀ φ, T.Stable (o.knows φ)
  stableClosed : T.Stable o.closed
  fixedUnfenced : ∀ r, Fixed T (o.unfenced r)
  fixedRouted : ∀ a peer, Fixed T (o.routed a peer)
  fixedAttempted : ∀ attempt, Fixed T (o.attempted attempt)
  fixedAnswers : ∀ id a, Fixed T (o.answers id a)
  plain : ∀ φ deed, Plain own φ deed → T.Does Deed.perform deed (o.knows φ) (o.knows φ)
  operates : ∀ session deed, Operates own deed →
    T.Does Deed.perform deed (o.knows (.serving session)) (o.knows (.serving session))
  enrol : ∀ session (m : HelloMessage), T.Does Deed.perform (.enrol m.boot own) (o.knows (.serving session))
    (o.knows (.serving { worker := m.worker, boot := m.boot, helloDone := true }))
  dismiss : ∀ session, session.helloDone = true → T.Does Deed.perform (.dismiss session.boot) (o.knows (.serving session))
    (o.knows (.leaving session))
  left : ∀ session s, session.helloDone = false → o.knows (.serving session) s → o.knows (.leaving session) s
  gone : ∀ session s, o.knows (.leaving session) s → o.closed s
  read : ∀ session m epoch r s, o.knows (.serving session) s →
    admitWorkerEvidence (Session.handshake session) m epoch s.impl.state = .ok r →
    ¬ (r.quarantined = true ∨ isContained r.state = true) → o.unfenced r s
  update : ∀ session m r, Session.handshake session = some m.boot →
    T.Does Deed.perform (.locked .peer (.updateResource (claimed m r) r.generation))
      (fun s => o.knows (.serving session) s ∧ o.unfenced r s) (o.knows (.serving session))
  logical : ∀ φ a s, o.knows φ s → a.envelope.workerBoot.valid = false →
    o.attempted (a, .ok (lit "coordinator:logical:" ++ a.id.text)) s
  dead : ∀ φ a s, o.knows φ s → deadIncarnation a s.impl.state = true →
    o.attempted (a, .ok (lit "coordinator:dead-incarnation:" ++ a.id.text)) s
  refused : ∀ φ a e s, o.knows φ s → o.attempted (a, .error e) s
  route : ∀ φ a peer s, o.knows φ s → a.envelope.workerBoot.valid = true → s.peers.find a.envelope.workerBoot = some peer →
    o.routed a peer s
  send : ∀ φ a peer payload frame, encodeActionDispatch a = .ok payload → encodeFrame .actionDispatch payload = .ok frame →
    ∀ w s, o.knows φ s → o.routed a peer s → T.admits (.send peer frame) w s → T.meets (.send peer frame) w s ∧
      T.guarantee s ((Deed.send peer frame).perform w s) ∧ o.knows φ ((Deed.send peer frame).perform w s) ∧
      (w.sending = .sent → o.attempted (a, .ok (lit "peer:" ++ a.envelope.workerBoot.text))
        ((Deed.send peer frame).perform w s))
  finish : ∀ φ attempts summary, T.Does Deed.perform (.locked .coordinator (.dispatchEnd attempts summary))
    (fun s => o.knows φ s ∧ ∀ attempt ∈ attempts, o.attempted attempt s) (o.knows φ)
  answer : ∀ φ id a mechanism s, o.knows φ s → s.impl.state.actions.find id = some a →
    enforcedMechanism a s.impl.state = some mechanism → o.answers id a s
  acknowledge : ∀ φ id a epoch, T.Does Deed.perform (.locked .coordinator (.recordActionAck (enforcementAck id a epoch)))
    (fun s => o.knows φ s ∧ o.answers id a s) (o.knows φ)
  record : ∀ φ id a mechanism epoch,
    T.Does Deed.perform (.locked .coordinator (.recordActionResult (enforcementResult id a mechanism epoch)))
      (fun s => o.knows φ s ∧ o.answers id a s) (o.knows φ)

/-- what the checks of the handler let through comes from the incarnation of the handshake -/
theorem handshake_of_admitted {handshake : Option WorkerBootId} {m : WorkerEvidenceMessage} {epoch : CoordinatorEpoch}
    {snapshot : RuntimeSnapshot} {r : ResourceRecord} (h : admitWorkerEvidence handshake m epoch snapshot = .ok r) :
    handshake = some m.boot := by
  by_contra hne
  rw [admitWorkerEvidence, if_pos hne] at h
  cases h

/-! ## The walk -/

section Walk

variable {own : Socket} {T : Terms Deed Weather Hub} {o : Outline} (C : Checked own T o) {α β : Type} {Q : α → Hub → Prop}
  {φ : Phase} {S : Hub → Prop}

abbrev Safe (T : Terms Deed Weather Hub) (Q : α → Hub → Prop) (p : Program α) (s : Hub) : Prop :=
  p.Safe Deed.perform T Q s

theorem Fixed.and {S S' : Hub → Prop} (h : Fixed T S) (h' : Fixed T S') : Fixed T fun s => S s ∧ S' s :=
  fun s t hs hst => ⟨h s t hs.1 hst, h' s t hs.2 hst⟩

theorem Fixed.all {ι : Type} {S : ι → Hub → Prop} {P : ι → Prop} (h : ∀ i, Fixed T (S i)) :
    Fixed T fun s => ∀ i, P i → S i s := fun s t hs hst i hi => h i s t (hs i hi) hst

theorem Fixed.const (P : Prop) : Fixed T fun _ => P := fun _ _ h _ => h

include C

theorem stable_with (hS : Fixed T S) : T.Stable fun s => o.knows φ s ∧ S s := fun s t hst hrely =>
  ⟨C.stable φ s t hst.1 hrely, hS s t hst.2 (.inl hrely)⟩

/-- a plain access leaves alone what is fixed -/
theorem safe_plain {deed : Deed} (hdeed : Plain own φ deed) (hS : Fixed T S) {next : Weather → Hub → Program α} {s : Hub}
    (h : o.knows φ s) (hs : S s)
    (hnext : ∀ w t, o.knows φ t → S t → o.knows φ (deed.perform w t) → S (deed.perform w t) →
      Safe T Q (next w t) (deed.perform w t)) : Safe T Q (.act deed next) s := by
  refine safe_act (stable_with C hS) ⟨h, hs⟩ fun w t ht hw => ?_
  obtain ⟨hmeet, hwithin, hknown⟩ := C.plain φ deed hdeed w t ht.1 hw
  exact ⟨hmeet, hwithin, hnext w t ht.1 ht.2 hknown (hS t _ ht.2 (.inr hwithin))⟩

theorem safe_look (hS : Fixed T S) {read : Hub → β} {next : β → Program α} {s : Hub} (h : o.knows φ s) (hs : S s)
    (hnext : ∀ t, o.knows φ t → S t → Safe T Q (next (read t)) t) : Safe T Q (look read next) s :=
  safe_plain C (.look φ) hS h hs fun _ t ht hst _ _ => hnext t ht hst

theorem safe_flush (hS : Fixed T S) (ws : List (ℕ × Bytes)) {next : Except Error Unit → Program α} {s : Hub}
    (h : o.knows φ s) (hs : S s) (hnext : ∀ r t, o.knows φ t → S t → Safe T Q (next r) t) :
    Safe T Q (flush ws next) s := by
  induction ws generalizing s with
  | nil => exact hnext _ s h hs
  | cons record ws ih =>
    refine safe_plain C (.append φ _ _) hS h hs fun w t _ _ ht hst => ?_
    split
    · exact ih ht hst
    · next e he => exact safe_plain C (.failure φ e) hS ht hst fun _ _ _ _ hu hsu => hnext _ _ hu hsu

/-- a section that is not plain: what it rests on is known before, and `S'` after -/
theorem safe_enter {author : Author} {op : Op} {K : Hub → Prop} {S' : Hub → Prop} (hK : T.Stable K)
    (hdeed : T.Does Deed.perform (.locked author op) K fun s => o.knows φ s ∧ S' s) (hS' : Fixed T S')
    {body : Clock → Impl → Step β} {next : Except Error Unit → Except Error β → Program α} {s : Hub} (h : K s)
    (hnext : ∀ flushed r t, o.knows φ t → S' t → Safe T Q (next flushed r) t) :
    Safe T Q (enterAndFlush author op body next) s := by
  refine safe_act hK h fun w t ht hw => ?_
  obtain ⟨hmeet, hwithin, hknown, hleft⟩ := hdeed w t ht hw
  exact ⟨hmeet, hwithin, safe_flush C hS' _ hknown hleft fun flushed u hu hsu => hnext flushed _ u hu hsu⟩

theorem safe_callFrom {author : Author} {op : Op} {K : Hub → Prop} {S' : Hub → Prop} (hK : T.Stable K)
    (hdeed : T.Does Deed.perform (.locked author op) K fun s => o.knows φ s ∧ S' s) (hS' : Fixed T S')
    {body : Clock → Impl → Step β} {next : Except Error β → Program α} {s : Hub} (h : K s)
    (hnext : ∀ r t, o.knows φ t → S' t → Safe T Q (next r) t) : Safe T Q (call author op body next) s :=
  safe_enter C hK hdeed hS' h fun _ _ t ht hst => hnext _ t ht hst

theorem safe_enterAndFlush {author : Author} {op : Op} (hop : Plain own φ (.locked author op)) (hS : Fixed T S)
    {body : Clock → Impl → Step β} {next : Except Error Unit → Except Error β → Program α} {s : Hub} (h : o.knows φ s) (hs : S s)
    (hnext : ∀ flushed r t, o.knows φ t → S t → Safe T Q (next flushed r) t) :
    Safe T Q (enterAndFlush author op body next) s := by
  refine safe_enter C (stable_with C hS) ?_ hS ⟨h, hs⟩ hnext
  intro w t ht hw
  obtain ⟨hmeet, hwithin, hknown⟩ := C.plain φ _ hop w t ht.1 hw
  exact ⟨hmeet, hwithin, hknown, hS t _ ht.2 (.inr hwithin)⟩

theorem safe_call {author : Author} {op : Op} (hop : Plain own φ (.locked author op)) (hS : Fixed T S)
    {body : Clock → Impl → Step β} {next : Except Error β → Program α} {s : Hub} (h : o.knows φ s) (hs : S s)
    (hnext : ∀ r t, o.knows φ t → S t → Safe T Q (next r) t) : Safe T Q (call author op body next) s :=
  safe_enterAndFlush C hop hS h hs fun _ _ t ht hst => hnext _ t ht hst

/-! ### Frames -/

theorem safe_reply {session : Session} {kind : MessageKind} (hkind : kind ≠ .actionDispatch) (payload : Bytes)
    {next : Except Error Unit → Program α} {s : Hub} (h : o.knows (.serving session) s)
    (hnext : ∀ r t, o.knows (.serving session) t → Safe T Q (next r) t) : Safe T Q (sendFrame own kind payload next) s := by
  unfold sendFrame
  split
  · exact hnext _ s h
  · next frame hframe =>
    exact safe_plain C (.reply session hkind hframe) (Fixed.const True) h trivial fun _ _ _ _ ht _ => hnext _ _ ht

theorem safe_reject {session : Session} (code : ErrorCode) (detail : Text) {next : Program α} {s : Hub}
    (h : o.knows (.serving session) s) (hnext : ∀ t, o.knows (.serving session) t → Safe T Q next t) :
    Safe T Q (reject own code detail next) s := by
  unfold reject
  split
  · exact safe_reply C (by decide) _ h fun _ t ht => hnext t ht
  · exact hnext s h

theorem safe_answer {session : Session} {kind : MessageKind} (hkind : kind ≠ .actionDispatch)
    (encoded : Except Error Bytes) {next : Program α} {s : Hub} (h : o.knows (.serving session) s)
    (hnext : ∀ t, o.knows (.serving session) t → Safe T Q next t) : Safe T Q (reply own kind encoded next) s := by
  unfold reply
  split
  · exact safe_reply C hkind _ h fun _ t ht => hnext t ht
  · exact safe_reject C _ _ h hnext

/-! ### Dispatches -/

theorem safe_executorDispatch (hS : Fixed T S) (a : ContainmentAction) {next : Except Error Text → Program α} {s : Hub}
    (h : o.knows φ s) (hs : S s)
    (hnext : ∀ outcome t, o.knows φ t → S t → o.attempted (a, outcome) t → Safe T Q (next outcome) t) :
    Safe T Q (executorDispatch a next) s := by
  unfold executorDispatch
  by_cases hvalid : a.envelope.workerBoot.valid = true
  swap
  · rw [if_pos hvalid]
    exact hnext _ s h hs (C.logical φ a s h (Bool.eq_false_of_not_eq_true hvalid))
  rw [if_neg (not_not.mpr hvalid)]
  refine safe_look C hS h hs fun t ht hst => ?_
  cases hpeer : t.peers.find a.envelope.workerBoot with
  | none =>
    refine safe_look C hS ht hst fun u hu hsu => ?_
    split_ifs with hdead
    · exact hnext _ u hu hsu (C.dead φ a u hu hdead)
    · exact hnext _ u hu hsu (C.refused φ a _ u hu)
  | some peer =>
    have hrouted := C.route φ a peer t ht hvalid hpeer
    dsimp only
    split
    · exact hnext _ t ht hst (C.refused φ a _ t ht)
    · next payload hpayload =>
      unfold sendFrame
      split
      · exact hnext _ t ht hst (C.refused φ a _ t ht)
      · next frame hframe =>
        refine safe_act (stable_with C (hS.and (C.fixedRouted a peer))) ⟨ht, hst, hrouted⟩ fun w u hu hw => ?_
        obtain ⟨hmeet, hwithin, hknown, hsent⟩ := C.send φ a peer payload frame hpayload hframe w u hu.1 hu.2.2 hw
        refine ⟨hmeet, hwithin, ?_⟩
        have hsu := hS u _ hu.2.1 (.inr hwithin)
        cases hsending : w.sending with
        | sent => exact hnext _ _ hknown hsu (hsent hsending)
        | closed => exact hnext _ _ hknown hsu (C.refused φ a _ _ hknown)
        | failed => exact hnext _ _ hknown hsu (C.refused φ a _ _ hknown)

theorem safe_attemptAll (rest : List ContainmentAction) (attempts : List Attempt) {next : List Attempt → Program α} {s : Hub}
    (h : o.knows φ s) (hs : ∀ attempt, attempt ∈ attempts → o.attempted attempt s)
    (hnext : ∀ attempts t, o.knows φ t → (∀ attempt, attempt ∈ attempts → o.attempted attempt t) →
      Safe T Q (next attempts) t) : Safe T Q (attemptAll rest attempts next) s := by
  induction rest generalizing attempts s with
  | nil => exact hnext attempts s h hs
  | cons a rest ih =>
    refine safe_executorDispatch C (Fixed.all C.fixedAttempted) a h hs fun outcome t ht hst hmade => ?_
    refine ih _ ht fun attempt hattempt => ?_
    rcases List.mem_append.mp hattempt with hold | hnew
    · exact hst attempt hold
    · rw [List.mem_singleton.mp hnew]
      exact hmade

theorem safe_dispatchContainment (generation : ContainmentGeneration) {next : Except Error DispatchSummary → Program α}
    {s : Hub} (h : o.knows φ s) (hnext : ∀ r t, o.knows φ t → Safe T Q (next r) t) :
    Safe T Q (dispatchContainment generation next) s := by
  refine safe_enterAndFlush C (.dispatch φ generation) (Fixed.const True) h trivial fun flushed first t ht _ => ?_
  cases first with
  | error e => exact hnext _ t ht
  | ok dispatched =>
    obtain ⟨toDispatch, summary⟩ := dispatched
    refine safe_attemptAll C toDispatch [] ht (by simp) fun attempts u hu hmade => ?_
    refine safe_enter C (stable_with C (Fixed.all C.fixedAttempted)) ?_ (Fixed.const True) ⟨hu, hmade⟩
      fun _ _ v hv _ => hnext _ v hv
    intro w v hv hw
    obtain ⟨hmeet, hwithin, hknown⟩ := C.finish φ attempts summary w v hv hw
    exact ⟨hmeet, hwithin, hknown, trivial⟩

theorem safe_enforce (hS : Fixed T S) {id : ActionId} {a : ContainmentAction} (mechanism : ContainmentMechanism)
    {next : Program α} {s : Hub} (h : o.knows φ s) (hs : S s) (hanswers : o.answers id a s)
    (hnext : ∀ t, o.knows φ t → S t → Safe T Q next t) : Safe T Q (enforce id a mechanism next) s := by
  have hboth := hS.and (C.fixedAnswers id a)
  have hkeeps : ∀ {deed : Deed}, T.Does Deed.perform deed (fun s => o.knows φ s ∧ o.answers id a s) (o.knows φ) →
      T.Does Deed.perform deed (fun s => o.knows φ s ∧ S s ∧ o.answers id a s)
        fun s => o.knows φ s ∧ S s ∧ o.answers id a s := by
    intro deed hdeed w t ht hw
    obtain ⟨hmeet, hwithin, hknown⟩ := hdeed w t ⟨ht.1, ht.2.2⟩ hw
    exact ⟨hmeet, hwithin, hknown, hboth t _ ht.2 (.inr hwithin)⟩
  refine safe_look C hboth h ⟨hs, hanswers⟩ fun t ht hst => ?_
  refine safe_callFrom C (stable_with C hboth) (hkeeps (C.acknowledge φ id a _)) hboth ⟨ht, hst⟩ fun _ u hu hsu => ?_
  refine safe_look C hboth hu hsu fun v hv hsv => ?_
  exact safe_callFrom C (stable_with C hboth) (hkeeps (C.record φ id a mechanism _)) hboth ⟨hv, hsv⟩
    fun _ x hx hsx => hnext x hx hsx.1

theorem safe_settle (snapshot : RuntimeSnapshot) (ids : List ActionId) {next : Program α} {s : Hub} (h : o.knows φ s)
    (hs : ∀ id a mechanism, snapshot.actions.find id = some a → enforcedMechanism a snapshot = some mechanism →
      o.answers id a s) (hnext : ∀ t, o.knows φ t → Safe T Q next t) : Safe T Q (settle snapshot ids next) s := by
  induction ids generalizing s with
  | nil => exact hnext s h
  | cons id ids ih =>
    unfold settle
    cases ha : snapshot.actions.find id with
    | none => exact ih h hs
    | some a =>
      cases hm : enforcedMechanism a snapshot with
      | none => simpa only [hm] using ih h hs
      | some mechanism =>
        simp only [hm]
        refine safe_enforce C (S := fun t => ∀ id a mechanism, snapshot.actions.find id = some a →
          enforcedMechanism a snapshot = some mechanism → o.answers id a t) ?_ mechanism h hs (hs id a mechanism ha hm)
          fun t ht hst => ih ht hst
        exact fun t u ht htu id a mechanism hid hmechanism =>
          C.fixedAnswers id a t u (ht id a mechanism hid hmechanism) htu

theorem safe_dispatchAndSettle (generation : ContainmentGeneration) {next : Program α} {s : Hub} (h : o.knows φ s)
    (hnext : ∀ t, o.knows φ t → Safe T Q next t) : Safe T Q (dispatchAndSettle generation next) s := by
  refine safe_dispatchContainment C generation h fun r t ht => ?_
  cases r with
  | error e => exact hnext t ht
  | ok summary =>
    refine safe_look C (Fixed.const True) ht trivial fun u hu _ => ?_
    split_ifs with hknown
    · exact safe_settle C _ _ hu (fun id a mechanism ha hm => C.answer φ id a mechanism u hu ha hm) hnext
    · exact hnext u hu

/-! ### The end of a connection -/

theorem safe_workerAuthorityLost {session : Session} (hdone : session.helloDone = true) (kind : FaultKind) (detail : Text)
    (time : UInt64) {next : Except Error ContainmentRecord → Program α} {s : Hub} (h : o.knows (.leaving session) s)
    (hnext : ∀ r t, o.knows (.leaving session) t → Safe T Q (next r) t) :
    Safe T Q (workerAuthorityLost .coordinator session.worker session.boot kind detail time next) s := by
  have htrue : Fixed T fun _ => True := Fixed.const True
  unfold workerAuthorityLost
  refine safe_call C (.lost session detail time hdone) htrue h trivial fun r t ht _ => ?_
  rcases r with e | containment | ⟨subject, generation⟩
  · exact hnext _ t ht
  · exact hnext _ t ht
  · refine safe_look C htrue ht trivial fun u hu _ => ?_
    dsimp only
    refine safe_call C (.observed session kind subject generation u.impl.state.epoch time detail) htrue hu trivial
      fun r v hv _ => ?_
    cases r with
    | error e => exact hnext _ v hv
    | ok fault =>
      refine safe_call C (.noted session _ _) htrue hv trivial fun _ x hx _ => ?_
      exact safe_call C (.authorize _ _ _) htrue hx trivial fun r y hy _ => hnext r y hy

theorem safe_hangUp (session : Session) {s : Hub} (h : o.knows (.serving session) s) :
    Safe T (fun _ => o.knows (.leaving session)) (hangUp session) s := by
  have hstop : ∀ t, o.knows (.leaving session) t →
      Safe T (fun _ => o.knows (.leaving session)) (.done () : Program Unit) t := fun t ht =>
    safe_done (C.stable _) ht fun _ hu => hu
  unfold hangUp
  split_ifs with hdone
  · refine safe_act (C.stable _) h fun w t ht hw => ?_
    obtain ⟨hmeet, hwithin, hknown⟩ := C.dismiss session hdone w t ht hw
    refine ⟨hmeet, hwithin, safe_workerAuthorityLost C hdone _ _ _ hknown fun r u hu => ?_⟩
    cases r with
    | error e => exact hstop u hu
    | ok containment => exact safe_dispatchAndSettle C _ hu hstop
  · exact hstop s (C.left session s (Bool.eq_false_of_not_eq_true hdone) h)

/-! ### The handlers -/

section Handlers

variable {session : Session} {s : Hub}

abbrev Served (T : Terms Deed Weather Hub) (o : Outline) (p : Program Session) (s : Hub) : Prop :=
  Safe T (fun session => o.knows (.serving session)) p s

theorem served_done (h : o.knows (.serving session) s) : Served T o (.done session) s :=
  safe_done (C.stable _) h fun _ ht => ht

theorem served_reject (code : ErrorCode) (detail : Text) (h : o.knows (.serving session) s) :
    Served T o (reject own code detail (.done session)) s := safe_reject C code detail h fun _ ht => served_done C ht

theorem served_reply {kind : MessageKind} (hkind : kind ≠ .actionDispatch) (encoded : Except Error Bytes)
    (h : o.knows (.serving session) s) : Served T o (reply own kind encoded (.done session)) s :=
  safe_answer C hkind encoded h fun _ ht => served_done C ht

theorem served_hello (m : HelloMessage) (h : o.knows (.serving session) s) : Served T o (handleHello own m session) s := by
  have htrue : Fixed T fun _ => True := Fixed.const True
  unfold handleHello
  refine safe_call C (.register session m) htrue h trivial fun r t ht _ => ?_
  cases r with
  | error e => exact served_reply C (by decide) _ ht
  | ok record =>
    refine safe_look C htrue ht trivial fun u hu _ => ?_
    refine safe_act (C.stable _) hu fun w v hv hw => ?_
    obtain ⟨hmeet, hwithin, hknown⟩ := C.enrol session m w v hv hw
    exact ⟨hmeet, hwithin, served_reply C (by decide) _ hknown⟩

theorem served_evidence (m : WorkerEvidenceMessage) (h : o.knows (.serving session) s) :
    Served T o (handleEvidence own m session) s := by
  have htrue : Fixed T fun _ => True := Fixed.const True
  unfold handleEvidence
  refine safe_look C htrue h trivial fun t ht _ => ?_
  refine safe_look C htrue ht trivial fun u hu _ => ?_
  cases hadmitted : admitWorkerEvidence (Session.handshake session) m t.impl.state.epoch u.impl.state with
  | error e => exact served_reject C _ _ hu
  | ok r =>
    dsimp only
    split_ifs with hfenced
    · refine safe_call C (.evidence session _ _ _ _ _ _) htrue hu trivial fun published v hv _ => ?_
      split
      · exact safe_reply C (by decide) _ hv fun _ _ hx => served_done C hx
      · exact served_done C hv
    · have hread := C.read session m _ r u hu hadmitted hfenced
      have hupdate := C.update session m r (handshake_of_admitted hadmitted)
      refine safe_callFrom C (φ := .serving session) (stable_with C (C.fixedUnfenced r)) ?_ htrue ⟨hu, hread⟩
        fun updated v hv _ => ?_
      · intro w v hv hw
        obtain ⟨hmeet, hwithin, hknown⟩ := hupdate w v hv hw
        exact ⟨hmeet, hwithin, hknown, trivial⟩
      · cases updated with
        | error e => exact served_reject C _ _ hv
        | ok updated =>
          refine safe_call C (.evidence session _ _ _ _ _ _) htrue hv trivial fun published x hx _ => ?_
          cases published with
          | error e => exact served_reject C _ _ hx
          | ok stored => exact served_reply C (by decide) _ hx

theorem served_faultReport (m : FaultReportMessage) (h : o.knows (.serving session) s) :
    Served T o (handleFaultReport own m session) s := by
  have htrue : Fixed T fun _ => True := Fixed.const True
  unfold handleFaultReport
  split_ifs with hforeign
  · exact served_reject C _ _ h
  · rw [not_or, not_not, not_not] at hforeign
    refine safe_call C (.report session m hforeign.1 hforeign.2) htrue h trivial fun r t ht _ => ?_
    rcases r with e | ⟨fault, duplicate⟩
    · exact served_reject C _ _ ht
    · dsimp only
      split_ifs with hcurrent
      · refine safe_call C (.authorize _ _ _) htrue ht trivial fun r u hu _ => ?_
        cases r with
        | error e => exact served_done C hu
        | ok containment => exact safe_dispatchAndSettle C _ hu fun _ hv => served_done C hv
      · exact served_done C ht

theorem served_actionAck (ack : ActionAcknowledgment) (h : o.knows (.serving session) s) :
    Served T o (handleActionAck own ack session) s := by
  unfold handleActionAck
  split_ifs with hdone
  · refine safe_call C (.ack session ack hdone) (Fixed.const True) h trivial fun r t ht _ => ?_
    cases r with
    | error e => exact served_reject C _ _ ht
    | ok u => exact served_done C ht
  · exact served_reject C _ _ h

theorem served_actionResult (result : ActionResult) (h : o.knows (.serving session) s) :
    Served T o (handleActionResult own result session) s := by
  unfold handleActionResult
  split_ifs with hdone
  · refine safe_call C (.result session result hdone) (Fixed.const True) h trivial fun r t ht _ => ?_
    cases r with
    | error e => exact served_reject C _ _ ht
    | ok u => exact served_done C ht
  · exact served_reject C _ _ h

theorem served_decoded {m : Type} {handle : m → Session → Program Session} (message : Except Error m)
    (h : o.knows (.serving session) s) (hhandle : ∀ m, Served T o (handle m session) s) :
    Served T o (decoded own session handle message) s := by
  cases message with
  | error e => exact served_reject C _ _ h
  | ok m => exact hhandle m

variable {control : Socket → Bytes → Program Unit} (hcontrol : Controls control)

include hcontrol

theorem served_frame (f : Frame) (h : o.knows (.serving session) s) :
    Served T o (handleFrame control own f session) s := by
  unfold handleFrame
  cases f.kind with
  | hello => exact served_decoded C _ h fun m => served_hello C m h
  | workerEvidence => exact served_decoded C _ h fun m => served_evidence C m h
  | heartbeat => exact served_done C h
  | faultReport => exact served_decoded C _ h fun m => served_faultReport C m h
  | actionAck => exact served_decoded C _ h fun ack => served_actionAck C ack h
  | actionResult => exact served_decoded C _ h fun result => served_actionResult C result h
  | controlRequest =>
    have hsafe : Safe T (fun _ => o.knows (.serving session)) (control own f.payload) s :=
      safe_of_all (C.stable _) (C.operates session) (fun _ _ ht => ht) (hcontrol own f.payload) h
    exact hsafe.bind C.lawful fun _ _ ht => served_done C ht
  | helloAck => exact served_reject C _ _ h
  | workerEvidenceAck => exact served_reject C _ _ h
  | queryRequest => exact served_reject C _ _ h
  | queryResponse => exact served_reject C _ _ h
  | controlResponse => exact served_reject C _ _ h
  | shutdown => exact served_reject C _ _ h
  | reject => exact served_reject C _ _ h
  | actionDispatch => exact served_reject C _ _ h

/-- what is known of a connection between two turns -/
def Outline.conn (o : Outline) : Conn → Hub → Prop
  | .serving session => o.knows (.serving session)
  | .closed => o.closed

/-- a checked outline makes every turn of a connection safe -/
theorem safe_serve (r : Request) (c : Conn) (h : o.conn c s) : Safe T o.conn (serve control own r c) s := by
  cases c with
  | closed =>
    cases r with
    | frame f => exact safe_done C.stableClosed h fun _ ht => ht
    | ending => exact safe_done C.stableClosed h fun _ ht => ht
  | serving session =>
    cases r with
    | frame f =>
      refine (served_frame C hcontrol f h).bind C.lawful fun session t ht => ?_
      exact safe_done (C.stable _) ht fun _ hu => hu
    | ending =>
      refine (safe_hangUp C session h).bind C.lawful fun _ t ht => ?_
      exact safe_done (C.stable _) ht fun u hu => C.gone session u hu

end Handlers

end Walk

/-! ## Every interleaving -/

/-- checked outlines whose guarantees fit together: in every interleaving every access meets its condition, and what is known of
a connection between two turns holds -/
theorem outline_run {T : Socket → Terms Deed Weather Hub} {o : Socket → Outline} (C : ∀ own, Checked own (T own) (o own))
    (hapart : ∀ m n s t, m ≠ n → (T m).guarantee s t → (T n).rely s t) {control : Socket → Bytes → Program Unit}
    (hcontrol : Controls control) (turns : List Turn) {h : Hub} (hstart : ∀ own, (o own).knows (.serving {}) h)
    (hadmitted : Runs.Along (Turn.after control) (Move.Meets fun own => (T own).admits) turns (idle h)) :
    (∀ own c, (Runs.run (Turn.after control) turns (idle h)).threads own = .done c →
      (o own).conn c (Runs.run (Turn.after control) turns (idle h)).shared) ∧
    Runs.Along (Turn.after control) (Move.Meets fun own => (T own).meets) turns (idle h) := by
  have hcontract : Contract Deed.perform (serve control) T fun own => (o own).conn :=
    { lawful := fun own => (C own).lawful
      apart := hapart
      serves := fun own r c s hc => safe_serve (C own) hcontrol r c hc }
  have hkept : Kept Deed.perform T (fun own => (o own).conn) (idle h) := fun own =>
    safe_done ((C own).stable _) (hstart own) fun _ ht => ht
  obtain ⟨hrun, hmeets⟩ := contract_run hcontract turns hadmitted hkept
  exact ⟨fun own c hc => ends_of_kept hcontract.lawful hrun hc, hmeets⟩

end FaultContainment.Sessions
