/-
The bookkeeping of `peer_sockets`.

The map is keyed by boot, a connection remembers one identity, and the end of a connection takes out the entry of the boot it
remembers. So the map is exact as long as every connection says hello for one boot, and no two for the same.

- `peers_run`: in every interleaving of orderly connections, the entries are the connections that completed a handshake and
  are open.
-/
import FaultContainment.Sessions.Operator

namespace FaultContainment.Sessions

open FaultContainment.Lib FaultContainment.Ids FaultContainment.Enums FaultContainment.Records FaultContainment.Engine
open FaultContainment.Protocol FaultContainment.Transport FaultContainment.Lib.Threads
open FaultContainment.Answers (Socket Sent)
open FaultContainment.Dispatching (Session)

/-- the boots the connections speak for, at most one each, and no two the same -/
def Apart (boots : Socket → Option WorkerBootId) : Prop := ∀ m n b, boots m = some b → boots n = some b → m = n

/-- an access of an orderly connection: it enrols nothing but its own boot -/
def Orderly (boots : Socket → Option WorkerBootId) (own : Socket) : Deed → Prop
  | .enrol boot _ => boots own = some boot
  | _ => True

instance decidableOrderly (boots : Socket → Option WorkerBootId) (own : Socket) : ∀ deed, Decidable (Orderly boots own deed)
  | .enrol boot _ => inferInstanceAs (Decidable (boots own = some boot))
  | .locked _ _ | .append _ _ | .look | .dismiss _ | .send _ _ => .isTrue trivial

variable {boots : Socket → Option WorkerBootId}

/-- every entry is of the connection that speaks for its boot -/
def Spoken (boots : Socket → Option WorkerBootId) (h : Hub) : Prop :=
  ∀ b n, h.peers.find b = some n → boots n = some b

/-- no entry is touched but that of the connection's own boot -/
def peersTerms (boots : Socket → Option WorkerBootId) (own : Socket) : Terms Deed Weather Hub where
  rely s t := (Spoken boots s → Spoken boots t) ∧ ∀ b, boots own = some b → t.peers.find b = s.peers.find b
  guarantee s t := (Spoken boots s → Spoken boots t) ∧ ∀ b, boots own ≠ some b → t.peers.find b = s.peers.find b
  admits deed _ _ := Orderly boots own deed
  meets _ _ _ := True

/-- the entry of a connection that completed a handshake, and none for the others -/
def peersOutline (boots : Socket → Option WorkerBootId) (own : Socket) : Outline where
  knows
    | .serving session, h => Spoken boots h ∧ if session.helloDone then boots own = some session.boot ∧
        h.peers.find session.boot = some own else ∀ b, boots own = some b → h.peers.find b = none
    | .leaving _, h => Spoken boots h ∧ ∀ b, boots own = some b → h.peers.find b = none
  closed h := Spoken boots h ∧ ∀ b, boots own = some b → h.peers.find b = none

/-! ## The outline is kept -/

/-- an access other than an enrolment and a dismissal -/
def leavesPeers : Deed → Bool
  | .enrol _ _ | .dismiss _ => false
  | _ => true

theorem perform_peers {deed : Deed} (h : leavesPeers deed = true) (w : Weather) (s : Hub) :
    (deed.perform w s).peers = s.peers := by
  cases deed with
  | enrol boot own => simp [leavesPeers] at h
  | dismiss boot => simp [leavesPeers] at h
  | send peer frame =>
    simp only [Deed.perform]
    split_ifs <;> rfl
  | locked author op => rfl
  | append sequence record => rfl
  | look => rfl

theorem plain_leavesPeers {own : Socket} {φ : Phase} {deed : Deed} (h : Plain own φ deed) : leavesPeers deed = true := by
  cases h <;> rfl

theorem operates_leavesPeers {own : Socket} {deed : Deed} (h : Operates own deed) : leavesPeers deed = true := by
  cases h <;> rfl

/-- the outline looks at `peer_sockets` only -/
theorem knows_congr {own : Socket} {φ : Phase} {s t : Hub} (hpeers : t.peers = s.peers)
    (h : (peersOutline boots own).knows φ s) : (peersOutline boots own).knows φ t := by
  cases φ with
  | serving session => simpa only [peersOutline, Spoken, hpeers] using h
  | leaving session => simpa only [peersOutline, Spoken, hpeers] using h

theorem does_leavesPeers {own : Socket} {deed : Deed} (h : leavesPeers deed = true) (φ : Phase) :
    (peersTerms boots own).Does Deed.perform deed ((peersOutline boots own).knows φ)
      ((peersOutline boots own).knows φ) := by
  intro w s hs _
  have hpeers := perform_peers h w s
  refine ⟨trivial, ⟨fun hspoken => ?_, fun b _ => by rw [hpeers]⟩, knows_congr hpeers hs⟩
  simpa only [Spoken, hpeers] using hspoken

theorem peers_lawful (own : Socket) : (peersTerms boots own).Lawful where
  refl _ := ⟨id, fun _ _ => rfl⟩
  trans _ _ _ hst htu := ⟨htu.1 ∘ hst.1, fun b hb => (htu.2 b hb).trans (hst.2 b hb)⟩

theorem peers_stable (own : Socket) (φ : Phase) : (peersTerms boots own).Stable ((peersOutline boots own).knows φ) := by
  intro s t hs hrely
  cases φ with
  | serving session =>
    refine ⟨hrely.1 hs.1, ?_⟩
    have hentry := hs.2
    split_ifs at hentry ⊢ with hdone
    · exact ⟨hentry.1, (hrely.2 _ hentry.1).trans hentry.2⟩
    · exact fun b hb => (hrely.2 b hb).trans (hentry b hb)
  | leaving session => exact ⟨hrely.1 hs.1, fun b hb => (hrely.2 b hb).trans (hs.2 b hb)⟩

/-- an enrolment -/
theorem peers_enrol (own : Socket) (session : Session) (m : HelloMessage) :
    (peersTerms boots own).Does Deed.perform (.enrol m.boot own) ((peersOutline boots own).knows (.serving session))
      ((peersOutline boots own).knows (.serving { worker := m.worker, boot := m.boot, helloDone := true })) := by
  intro w s hs hadmitted
  have hboot : boots own = some m.boot := hadmitted
  have hspoken : Spoken boots ((Deed.enrol m.boot own).perform w s) := by
    intro b n hb
    have hb : (s.peers.insert m.boot own).find b = some n := hb
    rw [OrderedMap.find_insert] at hb
    split_ifs at hb with heq
    · rw [← Option.some.inj hb, ← heq]
      exact hboot
    · exact hs.1 b n hb
  refine ⟨trivial, ⟨fun _ => hspoken, fun b hb => ?_⟩, hspoken, ?_⟩
  · have hne : m.boot ≠ b := fun heq => hb (heq ▸ hboot)
    exact OrderedMap.find_insert_ne _ _ hne
  · rw [if_pos rfl]
    exact ⟨hboot, OrderedMap.find_insert_self _ _ _⟩

/-- the end of a connection that completed a handshake -/
theorem peers_dismiss (own : Socket) {session : Session} (hdone : session.helloDone = true) :
    (peersTerms boots own).Does Deed.perform (.dismiss session.boot) ((peersOutline boots own).knows (.serving session))
      ((peersOutline boots own).knows (.leaving session)) := by
  intro w s hs _
  obtain ⟨hspoken, hentry⟩ := hs
  rw [if_pos hdone] at hentry
  have hfind : ∀ b, ((Deed.dismiss session.boot).perform w s).peers.find b =
      if session.boot = b then none else s.peers.find b := fun b => OrderedMap.find_erase _ _ _
  have hleft : Spoken boots ((Deed.dismiss session.boot).perform w s) := by
    intro b n hb
    rw [hfind] at hb
    split_ifs at hb
    exact hspoken b n hb
  refine ⟨trivial, ⟨fun _ => hleft, fun b hb => ?_⟩, hleft, fun b hb => ?_⟩
  · rw [hfind, if_neg fun heq : session.boot = b => hb (heq ▸ hentry.1)]
  · have heq : session.boot = b := Option.some.inj (hentry.1.symm.trans hb)
    rw [hfind, if_pos heq]

theorem peers_checked (own : Socket) : Checked own (peersTerms boots own) (peersOutline boots own) where
  lawful := peers_lawful own
  stable := peers_stable own
  stableClosed s t hs hrely := ⟨hrely.1 hs.1, fun b hb => (hrely.2 b hb).trans (hs.2 b hb)⟩
  fixedUnfenced _ := Fixed.const True
  fixedRouted _ _ := Fixed.const True
  fixedAttempted _ := Fixed.const True
  fixedAnswers _ _ := Fixed.const True
  plain φ _ hdeed := does_leavesPeers (plain_leavesPeers hdeed) φ
  operates session _ hdeed := does_leavesPeers (operates_leavesPeers hdeed) (.serving session)
  enrol := peers_enrol own
  dismiss _ hdone := peers_dismiss own hdone
  left session s hdone hs := by
    have hentry := hs.2
    rw [if_neg (by rw [hdone]; decide)] at hentry
    exact ⟨hs.1, hentry⟩
  gone _ _ h := h
  read _ _ _ _ _ _ _ _ := trivial
  update session m r _ w s hs hw := does_leavesPeers rfl (.serving session) w s hs.1 hw
  logical _ _ _ _ _ := trivial
  dead _ _ _ _ _ := trivial
  refused _ _ _ _ _ := trivial
  route _ _ _ _ _ _ _ := trivial
  send φ _ _ _ _ _ _ w s hs _ hw := by
    obtain ⟨hmeet, hwithin, hknown⟩ := does_leavesPeers rfl φ w s hs hw
    exact ⟨hmeet, hwithin, hknown, fun _ => trivial⟩
  finish φ _ _ w s hs hw := does_leavesPeers rfl φ w s hs.1 hw
  answer _ _ _ _ _ _ _ _ := trivial
  acknowledge φ _ _ _ w s hs hw := does_leavesPeers rfl φ w s hs.1 hw
  record φ _ _ _ _ w s hs hw := does_leavesPeers rfl φ w s hs.1 hw

/-! ## Every interleaving -/

/-- the boot a connection is open for -/
def Conn.handshake : Conn → Option WorkerBootId
  | .serving session => Session.handshake session
  | .closed => none

/-- a connection that waits has an entry exactly when it completed a handshake and is open: that of its boot -/
def Exact (p : Pool Socket Deed Weather Hub Conn) : Prop :=
  ∀ n c, p.threads n = .done c → ∀ b, p.shared.peers.find b = some n ↔ c.handshake = some b

theorem exact_of_knows {own : Socket} {h : Hub} {c : Conn} (hc : (peersOutline boots own).conn c h) (b : WorkerBootId) :
    h.peers.find b = some own ↔ c.handshake = some b := by
  cases c with
  | closed =>
    refine iff_of_false (fun hb => ?_) (by simp [Conn.handshake])
    have hnone := hc.2 b (hc.1 b own hb)
    rw [hnone] at hb
    cases hb
  | serving session =>
    obtain ⟨hspoken, hentry⟩ := hc
    have hconn : (Conn.serving session).handshake = if session.helloDone = true then some session.boot else none := rfl
    rw [hconn]
    by_cases hdone : session.helloDone = true
    · rw [if_pos hdone] at hentry ⊢
      constructor
      · intro hb
        rw [← hentry.1]
        exact hspoken b own hb
      · intro hb
        rw [← Option.some.inj hb]
        exact hentry.2
    · rw [if_neg hdone] at hentry ⊢
      refine iff_of_false (fun hb => ?_) (by simp)
      rw [hentry b (hspoken b own hb)] at hb
      cases hb

/-- **`peer_sockets` is exact.** In every interleaving of connections that speak for at most one boot each, and no two for the
same, the entries are those of the connections that completed a handshake and are open. -/
theorem peers_run (hboots : Apart boots) {control : Socket → Bytes → Program Unit} (hcontrol : Controls control)
    (turns : List Turn) {h : Hub} (hfresh : h.peers = ∅)
    (horderly : Runs.Along (Turn.after control) (Move.Meets fun own deed _ _ => Orderly boots own deed) turns (idle h)) :
    Exact (Runs.run (Turn.after control) turns (idle h)) := by
  have hstart : ∀ own, (peersOutline boots own).knows (.serving {}) h := by
    intro own
    refine ⟨fun b n hb => ?_, fun b _ => ?_⟩
    · rw [hfresh, OrderedMap.find_empty] at hb
      cases hb
    · rw [hfresh, OrderedMap.find_empty]
  have hapart : ∀ m n s t, m ≠ n → (peersTerms boots m).guarantee s t → (peersTerms boots n).rely s t :=
    fun m n s t hmn hst => ⟨hst.1, fun b hb => hst.2 b fun hm => hmn (hboots m n b hm hb)⟩
  obtain ⟨hends, -⟩ := outline_run peers_checked hapart hcontrol turns hstart horderly
  exact fun n c hn b => exact_of_knows (hends n c hn) b

/-- a worker that says hello -/
def greeting (m : HelloMessage) : Request := .frame { kind := .hello, payload := (encodeHello m).toOption.getD [] }

/-- two workers say hello at the same time, and the first one leaves -/
def twoGreetings : List Turn := [
  .request 1 (greeting { worker := ⟨1⟩, boot := ⟨11⟩ }), .request 2 (greeting { worker := ⟨2⟩, boot := ⟨22⟩ }),
  .step 1 {}, .step 2 {}, .step 2 {}, .step 1 {}, .step 1 {}, .step 2 {}, .step 1 {}, .step 2 {},
  .request 1 .ending, .step 1 {}]

/-- the boots of the two workers -/
def greeters : Socket → Option WorkerBootId
  | 1 => some ⟨11⟩
  | 2 => some ⟨22⟩
  | _ => none

theorem greeters_apart : Apart greeters := by
  intro m n b hm hn
  have hdistinct : (⟨11⟩ : WorkerBootId) ≠ ⟨22⟩ := by decide
  unfold greeters at hm hn
  split at hm <;> split at hn <;> grind

/-- a coordinator without a store -/
def unstored : Hub := { sys := { impl := construct ticks {}, attached := false } }

theorem peers_run_greetings : Exact (Runs.run (Turn.after (handleControl 0)) twoGreetings (idle unstored)) ∧
    (Runs.run (Turn.after (handleControl 0)) twoGreetings (idle unstored)).shared.peers.find ⟨11⟩ = none ∧
    (Runs.run (Turn.after (handleControl 0)) twoGreetings (idle unstored)).shared.peers.find ⟨22⟩ = some 2 :=
  ⟨peers_run greeters_apart (controls_handleControl 0) twoGreetings rfl (by decide +kernel), by decide +kernel, by decide +kernel⟩

/-- a worker that says hello for two boots, and leaves -/
def twoBoots : List Turn :=
  [.request 1 (greeting { worker := ⟨1⟩, boot := ⟨11⟩ }), .step 1 {}, .step 1 {}, .step 1 {}, .step 1 {},
    .request 1 (greeting { worker := ⟨1⟩, boot := ⟨12⟩ }), .step 1 {}, .step 1 {}, .step 1 {}, .step 1 {},
    .request 1 .ending] ++ List.replicate 40 (.step 1 {})

/-- the connection is over -/
def isOver : Program Conn → Bool
  | .done .closed => true
  | _ => false

theorem done_of_isOver {p : Program Conn} (h : isOver p = true) : p = .done .closed := by
  unfold isOver at h
  split at h
  · rfl
  · cases h

/-- otherwise an entry outlives its connection: that of the boot it said hello for first -/
theorem outlived_entry : ¬ ∀ turns, Exact (Runs.run (Turn.after (handleControl 0)) turns (idle unstored)) := by
  intro h
  have hover : isOver ((Runs.run (Turn.after (handleControl 0)) twoBoots (idle unstored)).threads 1) = true := by decide +kernel
  have hfind : (Runs.run (Turn.after (handleControl 0)) twoBoots (idle unstored)).shared.peers.find ⟨11⟩ = some 1 := by
    decide +kernel
  have hnone := (h twoBoots 1 .closed (done_of_isOver hover) ⟨11⟩).mp hfind
  cases hnone

end FaultContainment.Sessions
