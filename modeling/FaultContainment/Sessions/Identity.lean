/-
For whom the connections speak.

`handle_frame` compares the boot a payload names with the boot of the handshake, and the executor sends an action to the socket
that `peer_sockets` has for its boot. Frames of other connections arrive in between; what a connection said hello for is never
taken back.

- `identity_run`: in every interleaving, a connection reports, claims and loses authority only for boots it said hello for, and
  an action is sent only to a connection that said hello for the boot it is for.
-/
import FaultContainment.Sessions.Peers

namespace FaultContainment.Sessions

open FaultContainment.Lib FaultContainment.Ids FaultContainment.Enums FaultContainment.Records FaultContainment.Engine
open FaultContainment.Protocol FaultContainment.Transport FaultContainment.Lib.Threads
open FaultContainment.Answers (Socket Sent)
open FaultContainment.Dispatching (Session)

/-- the connection said hello for the boot, and was registered -/
def Greeted (n : Socket) (boot : WorkerBootId) (h : Hub) : Prop := (boot, n) ∈ h.enrolments

/-- every entry is of a connection that said hello for its boot -/
def Enrolled (h : Hub) : Prop := ∀ b n, h.peers.find b = some n → Greeted n b h

/-- a frame a connection may send: an answer of its own, a poll, or an action for who said hello there -/
inductive Addressed (own : Socket) : Socket → Bytes → Hub → Prop where
  | answer (h : Hub) {kind : MessageKind} {payload frame : Bytes} (hkind : kind ≠ .actionDispatch)
      (hframe : encodeFrame kind payload = .ok frame) : Addressed own own frame h
  | poll (h : Hub) (target : Socket) {frame : Bytes} (hframe : encodeFrame .queryRequest [] = .ok frame) :
      Addressed own target frame h
  | action {h : Hub} {target : Socket} {a : ContainmentAction} {payload frame : Bytes}
      (hpayload : encodeActionDispatch a = .ok payload) (hframe : encodeFrame .actionDispatch payload = .ok frame)
      (htarget : Greeted target a.envelope.workerBoot h) : Addressed own target frame h

/-- an access that speaks for nobody but those who said hello -/
def Identified (own : Socket) : Deed → Hub → Prop
  | .locked .peer (.publishFault evidence), h => evidence.reporterKind = .worker ∧ Greeted own evidence.reporterBoot h
  | .locked .peer (.updateResource record _), h => Greeted own record.ownerBoot h
  | .locked .coordinator (.authorityLost _ boot _ _), h => Greeted own boot h
  | .enrol _ n, _ => n = own
  | .dismiss boot, h => Greeted own boot h
  | .send target frame, h => Addressed own target frame h
  | _, _ => True

/-- what was said stays said -/
def Remembers (s t : Hub) : Prop := (∀ x ∈ s.enrolments, x ∈ t.enrolments) ∧ (Enrolled s → Enrolled t)

def identityTerms (own : Socket) : Terms Deed Weather Hub where
  rely := Remembers
  guarantee := Remembers
  admits _ _ _ := True
  meets deed _ s := Identified own deed s

/-- a connection that completed a handshake said hello for the boot it remembers -/
def identityOutline (own : Socket) : Outline where
  knows
    | .serving session, h | .leaving session, h => Enrolled h ∧ (session.helloDone = true → Greeted own session.boot h)
  routed a peer h := Greeted peer a.envelope.workerBoot h

/-! ## The outline is kept -/

theorem Remembers.refl (s : Hub) : Remembers s s := ⟨fun _ h => h, id⟩

theorem Remembers.trans {s t u : Hub} (h : Remembers s t) (h' : Remembers t u) : Remembers s u :=
  ⟨fun x hx => h'.1 x (h.1 x hx), h'.2 ∘ h.2⟩

theorem Remembers.of_eq {s t : Hub} (hpeers : t.peers = s.peers) (henrolments : t.enrolments = s.enrolments) :
    Remembers s t := by
  refine ⟨fun x hx => by rwa [henrolments], fun h b n hb => ?_⟩
  rw [hpeers] at hb
  have hgreeted : (b, n) ∈ s.enrolments := h b n hb
  rwa [Greeted, henrolments]

/-- no access takes back what was said -/
theorem remembers_perform (deed : Deed) (w : Weather) (s : Hub) : Remembers s (deed.perform w s) := by
  cases deed with
  | locked author op => exact Remembers.of_eq rfl rfl
  | append sequence record => exact Remembers.of_eq rfl rfl
  | look => exact Remembers.refl s
  | send target frame =>
    simp only [Deed.perform]
    split_ifs
    · exact Remembers.of_eq rfl rfl
    · exact Remembers.refl s
  | enrol boot own =>
    refine ⟨fun x hx => List.mem_cons_of_mem _ hx, fun h b n hb => ?_⟩
    have hb : (s.peers.insert boot own).find b = some n := hb
    rw [OrderedMap.find_insert] at hb
    split_ifs at hb with heq
    · rw [← Option.some.inj hb, ← heq]
      exact List.mem_cons_self
    · exact List.mem_cons_of_mem _ (h b n hb)
  | dismiss boot =>
    refine ⟨fun _ hx => hx, fun h b n hb => ?_⟩
    have hb : (s.peers.erase boot).find b = some n := hb
    rw [OrderedMap.find_erase] at hb
    split_ifs at hb
    exact h b n hb

theorem Greeted.remembers {n : Socket} {boot : WorkerBootId} {s t : Hub} (h : Greeted n boot s) (hst : Remembers s t) :
    Greeted n boot t := hst.1 _ h

theorem knows_remembers {own : Socket} {φ : Phase} {s t : Hub} (h : (identityOutline own).knows φ s) (hst : Remembers s t) :
    (identityOutline own).knows φ t := by
  cases φ with
  | serving session => exact ⟨hst.2 h.1, fun hdone => (h.2 hdone).remembers hst⟩
  | leaving session => exact ⟨hst.2 h.1, fun hdone => (h.2 hdone).remembers hst⟩

/-- so of an access only its condition is left to show -/
theorem does_identified {own : Socket} {φ : Phase} {deed : Deed} {K : Hub → Prop}
    (hK : ∀ s, K s → (identityOutline own).knows φ s) (h : ∀ s, K s → Identified own deed s) :
    (identityTerms own).Does Deed.perform deed K ((identityOutline own).knows φ) := fun w s hs _ =>
  ⟨h s hs, remembers_perform deed w s, knows_remembers (hK s hs) (remembers_perform deed w s)⟩

theorem identified_plain {own : Socket} {φ : Phase} {deed : Deed} (hdeed : Plain own φ deed) {s : Hub}
    (h : (identityOutline own).knows φ s) : Identified own deed s := by
  cases hdeed with
  | reply session hkind hframe => exact .answer s hkind hframe
  | report session m hdone hboot =>
    have hgreeted : Greeted own m.boot s := by
      rw [hboot]
      exact h.2 hdone
    exact ⟨rfl, hgreeted⟩
  | lost session detail time hdone => exact h.2 hdone
  | look | append | failure | register | evidence | ack | result | observed | noted | authorize | dispatch => trivial

theorem identified_operates {own : Socket} {deed : Deed} (hdeed : Operates own deed) (s : Hub) : Identified own deed s := by
  cases hdeed with
  | reply hkind hframe => exact .answer s hkind hframe
  | poll peer hframe => exact .poll s peer hframe
  | look | append | failure | command => trivial

theorem identity_checked (own : Socket) : Checked own (identityTerms own) (identityOutline own) where
  lawful := { refl := Remembers.refl, trans := fun _ _ _ => Remembers.trans }
  stable φ s t hs hrely := knows_remembers hs hrely
  stableClosed _ _ _ _ := trivial
  fixedUnfenced _ := Fixed.const True
  fixedRouted a peer s t h hst := h.remembers (hst.elim id id)
  fixedAttempted _ := Fixed.const True
  fixedAnswers _ _ := Fixed.const True
  plain φ _ hdeed := does_identified (fun _ => id) fun _ hs => identified_plain hdeed hs
  operates session _ hdeed := does_identified (fun _ => id) fun s _ => identified_operates hdeed s
  enrol session m w s hs _ :=
    ⟨rfl, remembers_perform _ w s, (remembers_perform _ w s).2 hs.1, fun _ => List.mem_cons_self⟩
  dismiss session hdone w s hs _ :=
    ⟨hs.2 hdone, remembers_perform _ w s, knows_remembers hs (remembers_perform _ w s)⟩
  left _ _ _ hs := hs
  gone _ _ _ := trivial
  read _ _ _ _ _ _ _ _ := trivial
  update session m r hboot := does_identified (fun _ hs => hs.1) fun s hs => by
    have hgreeted : Greeted own m.boot s := by
      unfold Session.handshake at hboot
      split_ifs at hboot with hdone
      rw [← Option.some.inj hboot]
      exact hs.1.2 hdone
    exact hgreeted
  logical _ _ _ _ _ := trivial
  dead _ _ _ _ _ := trivial
  refused _ _ _ _ _ := trivial
  route φ a peer s hs _ hfind := by
    cases φ with
    | serving session => exact hs.1 _ _ hfind
    | leaving session => exact hs.1 _ _ hfind
  send φ a peer payload frame hpayload hframe w s hs hrouted _ :=
    ⟨.action hpayload hframe hrouted, remembers_perform _ w s, knows_remembers hs (remembers_perform _ w s), fun _ => trivial⟩
  finish φ _ _ := does_identified (fun _ hs => hs.1) fun _ _ => trivial
  answer _ _ _ _ _ _ _ _ := trivial
  acknowledge φ _ _ _ := does_identified (fun _ hs => hs.1) fun _ _ => trivial
  record φ _ _ _ _ := does_identified (fun _ hs => hs.1) fun _ _ => trivial

/-! ## Every interleaving -/

/-- **A connection speaks for itself.** In every interleaving of the connections of a coordinator, whatever frames they send and
whenever they end, every access is made for who said hello. -/
theorem identity_run {control : Socket → Bytes → Program Unit} (hcontrol : Controls control) (turns : List Turn) (s : Sys) :
    Runs.Along (Turn.after control) (Move.Meets fun own deed _ h => Identified own deed h) turns (idle { sys := s }) := by
  have hstart : ∀ own, (identityOutline own).knows (.serving {}) { sys := s } := by
    intro own
    refine ⟨fun b n hb => ?_, fun hdone => by cases hdone⟩
    rw [OrderedMap.find_empty] at hb
    cases hb
  have hadmitted : Runs.Along (Turn.after control) (Move.Meets fun own => (identityTerms own).admits) turns
      (idle { sys := s }) := along_of_all (fun _ _ _ _ => trivial) turns _
  exact (outline_run identity_checked (fun _ _ _ _ _ hst => hst) hcontrol turns hstart hadmitted).2

/-- a frame with a message that encodes -/
def message (kind : MessageKind) (encoded : Except Error Bytes) : Request :=
  .frame { kind := kind, payload := encoded.toOption.getD [] }

/-- a request, and the accesses it leads to -/
def served (n : Socket) (r : Request) : List Turn := .request n r :: List.replicate 24 (.step n {})

/-- A worker says hello while an operator registers a resource of it; it sends evidence, reports a fault of the resource, is sent
the action, acknowledges it and leaves. -/
def reporting : List Turn :=
  [.request 1 (greeting { worker := ⟨1⟩, boot := ⟨11⟩ }),
    .request 2 (message .controlRequest (encodeControlRequest { command := lit "register-resource", arguments :=
      [lit "5", lit "store", lit "PROCESS", lit "CRITICAL", lit "0", lit "0", lit "0", lit "1", lit "11"] }))] ++
  (List.replicate 6 [.step 1 {}, .step 2 {}]).flatten ++
  served 1 (message .workerEvidence (encodeWorkerEvidence
    { worker := ⟨1⟩, boot := ⟨11⟩, epoch := ⟨1⟩, resource := ⟨5⟩, generation := ⟨1⟩, freshness := .fresh, sequence := ⟨1⟩ })) ++
  served 1 (message .faultReport (encodeFaultReport
    { worker := ⟨1⟩, boot := ⟨11⟩, epoch := ⟨1⟩
      evidence := { id := ⟨9⟩, subject := ⟨5⟩, kind := .processDeath, epoch := ⟨1⟩ } })) ++
  served 1 (message .actionAck (encodeActionAck { action := ⟨1⟩, actionGeneration := ⟨1⟩, epoch := ⟨1⟩, accepted := true })) ++
  served 1 .ending

/-- Every access is made for who said hello. Four frames are sent, the last of them the action; it is acknowledged, and the
coordinator answers for the one that the end of the connection calls for. -/
theorem identity_run_reporting :
    Runs.Along (Turn.after (handleControl 0)) (Move.Meets fun own deed _ h => Identified own deed h) reporting
        (idle { sys := unstored.sys }) ∧
      let h := (Runs.run (Turn.after (handleControl 0)) reporting (idle { sys := unstored.sys })).shared
      (h.handed.map Prod.fst, h.impl.state.actions.vals.map ContainmentAction.status) =
        ([2, 1, 1, 1], [.acknowledged, .resultRecorded]) :=
  ⟨identity_run (controls_handleControl 0) reporting unstored.sys, by decide +kernel⟩

end FaultContainment.Sessions
