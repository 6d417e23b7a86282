/-
The death of a worker incarnation, handled once and completely.

`worker_authority_lost` takes the lock several times. Its first section consults a table in memory, which knows the fault
raised for an incarnation once a call has remembered it; then it publishes a fault, remembers it, and asks for a containment.
Calls overlap with each other and with every other operation, a flush can fail after any section, and a recovery forgets the
table. The first section looks for resources by the boot alone, and the radius of the fault depends on the kind the caller
names.

A `Scene` is the engine with the calls for one incarnation in progress, and with what they did so far: the faults they created,
the containments they committed and returned, and the resources of the incarnation at the commitment.

- `commits_contained`: a whole commitment holds every resource of the incarnation.
- `inv_after`: each move keeps the invariant of the table, the calls and the containment.
- `handled_after`: each move handles the loss as it should.
- `loss_run`: so does every run whose moves meet their conditions.
- `loss_run_fails`: overlapping calls create two faults, a shared boot brings a foreign fence, and a kind that is not about
  authority leaves a resource out.
-/
import FaultContainment.Regrowth
import FaultContainment.References
import FaultContainment.Rejections
import FaultContainment.Durability.FailedRecovery

namespace FaultContainment.AuthorityLoss

open FaultContainment.Lib FaultContainment.Ids FaultContainment.Enums FaultContainment.Records
open FaultContainment.DurableEvent FaultContainment.BlastRadius FaultContainment.Engine FaultContainment.Dispatching
open FaultContainment.Containments FaultContainment.Observations FaultContainment.References FaultContainment.Radius
open FaultContainment.Regrowth

/-! ## Calls in progress -/

/-- where a call stands: before its first section, before it reads the epoch, publishes, remembers the fault, contains it -/
inductive Stage where
  | lost (kind : FaultKind) (detail : Text) (time : UInt64)
  | read (kind : FaultKind) (detail : Text) (time : UInt64) (subject : ResourceId) (generation : ResourceGeneration)
  | publish (evidence : FaultEvidence)
  | note (fault : FaultId) (generation : FaultGeneration)
  | authorize (fault : FaultId) (generation : FaultGeneration)
  deriving DecidableEq

/-- past the first section -/
def Stage.underway : Stage → Bool
  | .lost _ _ _ => false
  | _ => true

/-- the fault a call has published -/
def Stage.fault : Stage → Option FaultId
  | .note f _ | .authorize f _ => some f
  | _ => none

/-- the engine, the calls for one incarnation, and what they did -/
structure Scene where
  impl : Impl
  calls : OrderedMap ℕ Stage := ∅
  created : List FaultId := []
  committed : List ContainmentGeneration := []
  answers : List ContainmentRecord := []
  covered : List ResourceId := []
  /-- a restart or a recovery came after the fault and cleared the table -/
  forgotten : Bool := false

/-- a new engine, nothing lost -/
def Scene.start (clk : Clock) (config : Config) : Scene := { impl := construct clk config }

section Incarnation

variable (worker : WorkerId) (boot : WorkerBootId)

/-- the resources of the incarnation -/
def owned (i : Impl) : List ResourceId :=
  (i.state.topology.resources.toList.filter fun e => decide (e.2.ownerWorker = worker ∧ e.2.ownerBoot = boot)).map Prod.fst

/-- the entry of the table for the incarnation -/
def entry (i : Impl) : Option FaultId := i.authorityLossFaults.find ⟨worker, boot⟩

/-- not a section of a call for the incarnation -/
def Foreign : Op → Prop
  | .authorityLost w b _ _ => ¬ (w = worker ∧ b = boot)
  | .noteAuthorityLoss key _ => key ≠ ⟨worker, boot⟩
  | _ => True

/-- what happens: a section of something else, a call arrives, a call takes its next section and its flush succeeds or fails, the
process restarts, or the engine recovers from files -/
inductive Move where
  | other (c : Call) (h : Foreign worker boot c.op)
  | arrive (n : ℕ) (kind : FaultKind) (detail : Text) (time : UInt64)
  | advance (n : ℕ) (clk : Clock) (durable : Bool)
  | restart (clk : Clock) (config : Config)
  | recover (clk : ℕ → Clock) (io : ℕ → Io) (nowMs : UInt64) (store : Persistence.Store) (attached : Bool)

/-- the resources of the incarnation when a fault of the calls was last contained -/
def Scene.coverage (s : Scene) (clk : Clock) : Op → List ResourceId
  | .authorizeContainment id expected =>
    if id ∈ s.created ∧ (authorizeContainment clk id expected s.impl).result.isOk = true then owned worker boot s.impl
    else s.covered
  | _ => s.covered

/-- the next section of call `n` -/
def Scene.turn (s : Scene) (n : ℕ) (clk : Clock) (durable : Bool) : Stage → Scene
  | .lost kind detail time =>
    let step := authorityLost clk worker boot detail time s.impl
    let left := { s with impl := step.impl, calls := s.calls.erase n }
    match step.result with
    | .error _ => left
    | .ok (.alreadyContained c) => { left with answers := c :: s.answers }
    | .ok (.fenced subject generation) =>
      if durable then { left with calls := s.calls.insert n (.read kind detail time subject generation) } else left
  | .read kind detail time subject generation =>
    { s with calls :=
        s.calls.insert n (.publish (lossEvidence kind subject generation s.impl.state.epoch time detail)) }
  | .publish evidence =>
    let step := publishFault clk evidence s.impl
    let left := { s with impl := step.impl, calls := s.calls.erase n }
    match step.result with
    | .error _ => left
    | .ok f =>
      let left := { left with created := if s.impl.state.faults.has f.evidence.id then s.created else
        f.evidence.id :: s.created }
      if durable then { left with calls := s.calls.insert n (.note f.evidence.id f.evidence.generation) } else left
  | .note fault generation =>
    { s with
      impl := (noteAuthorityLoss ⟨worker, boot⟩ fault s.impl).impl
      calls := s.calls.insert n (.authorize fault generation) }
  | .authorize fault generation =>
    let step := authorizeContainment clk fault generation s.impl
    let left := { s with
      impl := step.impl, calls := s.calls.erase n
      covered := s.coverage worker boot clk (.authorizeContainment fault generation) }
    match step.result with
    | .error _ => left
    | .ok c =>
      { left with
        committed := c.generation :: s.committed, answers := if durable then c :: s.answers else s.answers }

/-- no call survives a restart or a recovery -/
def Scene.interrupted (s : Scene) (i : Impl) : Scene :=
  { s with impl := i, calls := ∅, forgotten := !s.created.isEmpty && (entry worker boot i).isNone }

/-- the scene after a move -/
def Move.after : Move worker boot → Scene → Scene
  | .other c _, s => { s with impl := c.after s.impl, covered := s.coverage worker boot c.clk c.op }
  | .arrive n kind detail time, s =>
    if s.calls.has n then s else { s with calls := s.calls.insert n (.lost kind detail time) }
  | .advance n clk durable, s =>
    match s.calls.find n with
    | none => s
    | some stage => s.turn worker boot n clk durable stage
  | .restart clk config, s => s.interrupted worker boot (construct clk config)
  | .recover clk io nowMs store attached, s =>
    s.interrupted worker boot (recoverFromStore clk io nowMs ⟨s.impl, store, attached⟩).1.impl

/-! ## The conditions -/

/-- a commitment for a fault of the calls is refused, or it comes before any answer, its generation is not taken, and the fault
holds every resource of the incarnation -/
def CommitsWhole (s : Scene) (id : FaultId) (expected : FaultGeneration) : Prop :=
  ∀ fault, admitContainment id expected s.impl = .ok fault →
    s.answers = [] ∧ WellFormed s.impl.state.topology ∧
      s.impl.state.containments.has (nextGeneration s.impl.state.containmentGeneration) = false ∧
      ∀ k ∈ owned worker boot s.impl, HeldOn s.impl.state fault s.impl.state.topology k

/-- Once a call was answered the table is not cleared before the next. A first section that the table answers finds the resources of the
commitment, none of them released. One that fences finds nothing published or underway for the incarnation, and its boot
shared with no other worker. -/
structure FindsWhole (s : Scene) : Prop where
  remembered : s.answers ≠ [] → s.forgotten = false
  answered : ∀ c, knownLoss ⟨worker, boot⟩ s.impl = some c → ∀ k ∈ owned worker boot s.impl, k ∈ s.covered ∧ k ∉ c.released
  alone : knownLoss ⟨worker, boot⟩ s.impl = none → (lossSubject (ownedBy boot s.impl.state.topology.resources)).valid = true →
    s.created = [] ∧ (∀ n stage, s.calls.find n = some stage → stage.underway = false) ∧
      ∀ k r, s.impl.state.topology.resources.find k = some r → r.ownerBoot = boot → r.ownerWorker = worker

/-- the registry knows the incarnation, and no newer one of its worker has taken its place -/
def Stands (i : Impl) : Prop :=
  i.state.workers.incarnations.has ⟨worker, boot⟩ = true ∧ i.state.workers.currentBoot.find worker = some boot

/-- the condition of a move -/
def Careful : Move worker boot → Scene → Prop
  | .other c _, s => ∀ id expected, c.op = .authorizeContainment id expected → id ∈ s.created →
      CommitsWhole worker boot s id expected
  | .arrive _ _ _ _, _ => True
  | .advance n _ _, s =>
    match s.calls.find n with
    | some (.lost _ _ _) =>
      (s.answers ≠ [] → Stands worker boot s.impl) ∧ (Stands worker boot s.impl → FindsWhole worker boot s)
    | some (.publish evidence) => s.impl.faultByDigest.find (normalizeEvidence evidence s.impl).digest = none
    | some (.authorize fault generation) => CommitsWhole worker boot s fault generation
    | _ => True
  | .restart _ _, _ => True
  | .recover _ _ _ _ _, _ => True

/-! ## Checked conditions -/

instance decidableCommitsWhole (s : Scene) (id : FaultId) (expected : FaultGeneration) :
    Decidable (CommitsWhole worker boot s id expected) :=
  decidable_of_iff (∀ fault ∈ (admitContainment id expected s.impl).toOption, s.answers.isEmpty = true ∧
      WellFormed s.impl.state.topology ∧
      s.impl.state.containments.has (nextGeneration s.impl.state.containmentGeneration) = false ∧
      ∀ k ∈ owned worker boot s.impl, (computeBlastRadius (inputOn s.impl.state {} fault s.impl.state.topology)).toOption.any
        (fun radius => radius.mandatory.contains k) = true) <| by
    have hheldOn : ∀ fault k, WellFormed s.impl.state.topology →
        (HeldOn s.impl.state fault s.impl.state.topology k ↔
          (computeBlastRadius (inputOn s.impl.state {} fault s.impl.state.topology)).toOption.any
            (fun radius => radius.mandatory.contains k) = true) := by
      intro fault k hw
      rw [heldOn_iff {} hw k, Option.any_eq_true, Option.any_eq_true]
      simp only [decide_eq_true_eq, List.contains_iff_mem]
    constructor
    · intro h fault hfault
      obtain ⟨hanswers, hw, hnew, hheld⟩ := h fault (by rw [hfault]; rfl)
      exact ⟨List.isEmpty_iff.mp hanswers, hw, hnew, fun k hk => (hheldOn fault k hw).mpr (hheld k hk)⟩
    · intro h fault hfault
      obtain ⟨hanswers, hw, hnew, hheld⟩ := h fault (ok_of_mem_toOption hfault)
      exact ⟨List.isEmpty_iff.mpr hanswers, hw, hnew, fun k hk => (hheldOn fault k hw).mp (hheld k hk)⟩

instance decidableFindsWhole (s : Scene) : Decidable (FindsWhole worker boot s) :=
  decidable_of_iff ((s.answers.isEmpty = false → s.forgotten = false) ∧
      (∀ c ∈ knownLoss ⟨worker, boot⟩ s.impl, ∀ k ∈ owned worker boot s.impl,
        s.covered.contains k = true ∧ c.released.contains k = false) ∧
      ((knownLoss ⟨worker, boot⟩ s.impl).isNone = true →
        (lossSubject (ownedBy boot s.impl.state.topology.resources)).valid = true → s.created.isEmpty = true ∧
          (∀ n stage, s.calls.find n = some stage → stage.underway = false) ∧
          ∀ k r, s.impl.state.topology.resources.find k = some r → r.ownerBoot = boot → r.ownerWorker = worker)) <| by
    have hmiss : ∀ (l : List ResourceId) (k : ResourceId), l.contains k = false ↔ k ∉ l := by
      intro l k
      rw [← List.contains_iff_mem, Bool.not_eq_true]
    have hempty : ∀ {α : Type} (l : List α), l.isEmpty = false ↔ l ≠ [] := by
      intro α l
      rw [Ne, ← List.isEmpty_iff, Bool.not_eq_true]
    constructor
    · intro h
      refine ⟨fun hne => h.1 ((hempty _).mpr hne), fun c hc k hk => ?_, fun hnone hsubject => ?_⟩
      · obtain ⟨hcovered, hreleased⟩ := h.2.1 c hc k hk
        exact ⟨List.contains_iff_mem.mp hcovered, (hmiss _ _).mp hreleased⟩
      · obtain ⟨hcreated, hrest⟩ := h.2.2 (Option.isNone_iff_eq_none.mpr hnone) hsubject
        exact ⟨List.isEmpty_iff.mp hcreated, hrest⟩
    · intro h
      refine ⟨fun hne => h.remembered ((hempty _).mp hne), fun c hc k hk => ?_, fun hnone hsubject => ?_⟩
      · obtain ⟨hcovered, hreleased⟩ := h.answered c hc k hk
        exact ⟨List.contains_iff_mem.mpr hcovered, (hmiss _ _).mpr hreleased⟩
      · obtain ⟨hcreated, hrest⟩ := h.alone (Option.isNone_iff_eq_none.mp hnone) hsubject
        exact ⟨List.isEmpty_iff.mpr hcreated, hrest⟩

instance decidableStands (i : Impl) : Decidable (Stands worker boot i) := inferInstanceAs (Decidable (_ ∧ _))

/-- the fault a section contains, and the generation it expects -/
def commitment : Op → Option (FaultId × FaultGeneration)
  | .authorizeContainment id expected => some (id, expected)
  | _ => none

theorem commitment_iff (op : Op) (id : FaultId) (expected : FaultGeneration) :
    commitment op = some (id, expected) ↔ op = .authorizeContainment id expected := by
  cases op <;> simp [commitment]

instance decidableCareful (m : Move worker boot) (s : Scene) : Decidable (Careful worker boot m s) :=
  match m with
  | .other c _ =>
    decidable_of_iff (∀ p ∈ commitment c.op, p.1 ∈ s.created → CommitsWhole worker boot s p.1 p.2) <| by
      constructor
      · intro h id expected hop
        exact h (id, expected) ((commitment_iff c.op id expected).mpr hop)
      · intro h p hp
        exact h p.1 p.2 ((commitment_iff c.op p.1 p.2).mp hp)
  | .arrive _ _ _ _ => isTrue trivial
  | .restart _ _ => isTrue trivial
  | .recover _ _ _ _ _ => isTrue trivial
  | .advance n clk durable =>
    match hn : s.calls.find n with
    | some (.lost _ _ _) =>
      decidable_of_iff ((s.answers.isEmpty = false → Stands worker boot s.impl) ∧
          (Stands worker boot s.impl → FindsWhole worker boot s)) <| by
        unfold Careful
        dsimp only
        rw [hn, Ne, ← List.isEmpty_iff, Bool.not_eq_true]
    | some (.publish evidence) =>
      decidable_of_iff ((s.impl.faultByDigest.find (normalizeEvidence evidence s.impl).digest).isNone = true) <| by
        unfold Careful
        dsimp only
        rw [hn]
        exact Option.isNone_iff_eq_none
    | some (.authorize fault generation) =>
      decidable_of_iff (CommitsWhole worker boot s fault generation) <| by
        unfold Careful
        dsimp only
        rw [hn]
    | none | some (.read ..) | some (.note ..) => isTrue <| by
      unfold Careful
      dsimp only
      rw [hn]
      trivial

/-! ## What is asked -/

/-- what a call returns with the section it takes -/
def Scene.answer (s : Scene) (n : ℕ) (clk : Clock) : Option ContainmentRecord :=
  match s.calls.find n with
  | some (.lost _ detail time) =>
    match (authorityLost clk worker boot detail time s.impl).result with
    | .ok (.alreadyContained c) => some c
    | _ => none
  | some (.authorize fault generation) => (authorizeContainment clk fault generation s.impl).result.toOption
  | _ => none

/-- what the calls in progress go with -/
def Stage.Fits (created : List FaultId) (forgotten : Bool) (entry : Option FaultId) : Stage → Prop
  | .lost _ _ _ => True
  | .read _ _ _ _ _ | .publish _ => created = []
  | .note f _ => created = [f] ∧ forgotten = false
  | .authorize f _ => created = [f] ∧ forgotten = false ∧ entry = some f

/-- each call fits, and at most one is past its first section -/
structure Orderly (calls : OrderedMap ℕ Stage) (created : List FaultId) (forgotten : Bool) (entry : Option FaultId) : Prop where
  fits : ∀ n a, calls.find n = some a → a.Fits created forgotten entry
  single : ∀ n a m b, calls.find n = some a → calls.find m = some b → a.underway = true → b.underway = true → n = m

theorem Stage.fits_waiting {a : Stage} (h : a.underway = false) (created : List FaultId) (forgotten : Bool)
    (entry : Option FaultId) : a.Fits created forgotten entry := by
  cases a with
  | lost => trivial
  | _ => simp [Stage.underway] at h

section Orderly

variable {calls : OrderedMap ℕ Stage} {created : List FaultId} {forgotten : Bool} {entry : Option FaultId}

theorem Orderly.sub (h : Orderly calls created forgotten entry) {calls' : OrderedMap ℕ Stage}
    (hsub : ∀ n a, calls'.find n = some a → calls.find n = some a) : Orderly calls' created forgotten entry :=
  ⟨fun n a ha => h.fits n a (hsub n a ha), fun n a m b ha hb => h.single n a m b (hsub n a ha) (hsub m b hb)⟩

theorem find_erase_sub (n : ℕ) : ∀ m a, (calls.erase n).find m = some a → calls.find m = some a := by
  intro m a ha
  rw [OrderedMap.find_erase] at ha
  split_ifs at ha
  exact ha

theorem find_noCalls {n : ℕ} {a : Stage} : (∅ : OrderedMap ℕ Stage).find n ≠ some a := by
  rw [OrderedMap.find_empty]
  exact nofun

theorem orderly_empty (created : List FaultId) (forgotten : Bool) (entry : Option FaultId) :
    Orderly ∅ created forgotten entry :=
  ⟨fun _ _ ha => absurd ha find_noCalls, fun _ _ _ _ ha => absurd ha find_noCalls⟩

/-- the one call past its first section goes on, and the rest wait -/
theorem Orderly.insert {n : ℕ} (honly : ∀ m b, calls.find m = some b → b.underway = true → m = n) {a : Stage}
    {created' : List FaultId} {forgotten' : Bool} {entry' : Option FaultId} (ha : a.Fits created' forgotten' entry') :
    Orderly (calls.insert n a) created' forgotten' entry' := by
  have hother : ∀ m b, (calls.insert n a).find m = some b → b.underway = true → m = n := by
    intro m b hb hunder
    rw [OrderedMap.find_insert] at hb
    split_ifs at hb with hm
    · exact hm.symm
    · exact honly m b hb hunder
  constructor
  · intro m b hb
    by_cases hunder : b.underway = true
    · obtain rfl := hother m b hb hunder
      rw [OrderedMap.find_insert_self] at hb
      exact Option.some.inj hb ▸ ha
    · exact Stage.fits_waiting (Bool.eq_false_iff.mpr hunder) _ _ _
  · intro m b m' b' hb hb' hunder hunder'
    exact (hother m b hb hunder).trans (hother m' b' hb' hunder').symm

/-- when the call in progress ends, the rest wait -/
theorem Orderly.erase {n : ℕ} (honly : ∀ m b, calls.find m = some b → b.underway = true → m = n)
    (created' : List FaultId) (forgotten' : Bool) (entry' : Option FaultId) :
    Orderly (calls.erase n) created' forgotten' entry' := by
  have hwaiting : ∀ m b, (calls.erase n).find m = some b → b.underway = false := by
    intro m b hb
    rw [OrderedMap.find_erase] at hb
    split_ifs at hb with hm
    exact Bool.eq_false_iff.mpr fun hunder => hm (honly m b hb hunder).symm
  constructor
  · intro m b hb
    exact Stage.fits_waiting (hwaiting m b hb) _ _ _
  · intro m b m' b' hb hb' hunder hunder'
    exact absurd hunder (Bool.eq_false_iff.mp (hwaiting m b hb))

end Orderly

/-- the fault is stored; the containment it names is, under its own generation, and holds the resources of the commitment or has
released them; and every answer was that containment -/
def Bound (i : Impl) (f : FaultId) (answers : List ContainmentRecord) (covered : List ResourceId) : Prop :=
  ∃ fault, i.state.faults.find f = some fault ∧
    (fault.containmentGeneration.valid = true → ∃ c, i.state.containments.find fault.containmentGeneration = some c ∧
      c.generation = fault.containmentGeneration ∧ ∀ k ∈ covered, k ∈ c.mandatory ∨ k ∈ c.released) ∧
    ∀ a ∈ answers, fault.containmentGeneration.valid = true ∧ a.generation = fault.containmentGeneration

structure Inv (s : Scene) : Prop where
  orderly : Orderly s.calls s.created s.forgotten (entry worker boot s.impl)
  short : s.created.length ≤ 1
  idle : s.created = [] → s.forgotten = false ∧ s.committed = [] ∧ s.answers = []
  once : s.committed.length ≤ 1
  spent : s.committed ≠ [] → ∀ n a, s.calls.find n = some a → a.underway = false
  table : ∀ f, entry worker boot s.impl = some f → s.created = [f] ∧ s.forgotten = false
  noted : s.answers ≠ [] → s.forgotten = false → ∃ f, entry worker boot s.impl = some f
  same : ∀ c ∈ s.answers, ∀ c' ∈ s.answers, c.generation = c'.generation
  bound : ∀ f, s.created = [f] → s.forgotten = false → Bound s.impl f s.answers s.covered

/-! ## The containment of the fault -/

section Kept

variable {i : Impl} {f : FaultId} {answers : List ContainmentRecord} {covered : List ResourceId}

/-- what is in a containment stays in it, or is released from it -/
theorem containment_kept (c : Call) {g : ContainmentGeneration} {d : ContainmentRecord}
    (hfind : i.state.containments.find g = some d) : ∃ d', (c.after i).state.containments.find g = some d' ∧
      d'.generation = d.generation ∧ ∀ k, k ∈ d.mandatory ∨ k ∈ d.released → k ∈ d'.mandatory ∨ k ∈ d'.released := by
  have hinsert : ∀ g' (record record' : ContainmentRecord), i.state.containments.find g' = some record →
      (c.after i).state.containments = i.state.containments.insert g' record' → record'.generation = record.generation →
      (∀ k, k ∈ record.mandatory ∨ k ∈ record.released → k ∈ record'.mandatory ∨ k ∈ record'.released) →
      ∃ d', (c.after i).state.containments.find g = some d' ∧ d'.generation = d.generation ∧
        ∀ k, k ∈ d.mandatory ∨ k ∈ d.released → k ∈ d'.mandatory ∨ k ∈ d'.released := by
    intro g' record record' hrecord hc hgeneration hin
    rw [hc]
    by_cases hg : g' = g
    · subst hg
      obtain rfl := Option.some.inj (hfind.symm.trans hrecord)
      exact ⟨record', OrderedMap.find_insert_self _ _ _, hgeneration, hin⟩
    · exact ⟨d, (OrderedMap.find_insert_ne _ _ hg).trans hfind, rfl, fun _ hk => hk⟩
  cases writes c i with
  | none hc => exact ⟨d, hc ▸ hfind, rfl, fun _ hk => hk⟩
  | verify g' record _ hrecord _ hc => exact hinsert g' record _ hrecord hc rfl fun _ hk => hk
  | release g' record request _ _ _ hrecord hc =>
    refine hinsert g' record _ hrecord hc rfl fun k hk => ?_
    show k ∈ idSetErase record.mandatory request.resource ∨ k ∈ idSetInsert record.released request.resource
    rw [mem_idSetInsert]
    rcases hk with hk | hk
    · by_cases hr : k = request.resource
      · exact .inr (.inl hr)
      · exact .inl ((mem_idSetErase_ne hr).mpr hk)
    · exact .inr (.inr hk)
  | commit id expected fault radius _ _ _ hc =>
    refine ⟨d, ?_, rfl, fun _ hk => hk⟩
    rw [hc, OrderedMap.find_emplace, if_neg]
    · exact hfind
    · intro hnew
      rw [hnew.1, hfind] at hnew
      simp at hnew

/-- a fault names its containment until it is contained again -/
theorem fault_kept (c : Call) {fault : FaultRecord} (hf : i.state.faults.find f = some fault)
    (hc : ∀ expected, c.op ≠ .authorizeContainment f expected) : ∃ fault', (c.after i).state.faults.find f = some fault' ∧
      fault'.containmentGeneration = fault.containmentGeneration := by
  by_cases hcommit : ∃ id expected, c.op = .authorizeContainment id expected
  · obtain ⟨id, expected, hop⟩ := hcommit
    obtain ⟨clk, op⟩ := c
    subst hop
    have hid : id ≠ f := by
      intro hid
      exact hc expected (by rw [hid])
    show ∃ fault', (authorizeContainment clk id expected i).impl.state.faults.find f = some fault' ∧ _
    rcases authorizeContainment_cases clk id expected i with hsame | ⟨record, radius, hfault, hradius⟩
    · rw [hsame]
      exact ⟨fault, hf, rfl⟩
    · rw [authorizeContainment_admitted clk hfault hradius, commitContainment_faults]
      exact ⟨fault, (OrderedMap.find_insert_ne _ _ hid).trans hf, rfl⟩
  · obtain ⟨fault', hf', -, hsame⟩ := revises_after c i (fun id expected hop => hcommit ⟨id, expected, hop⟩) f fault hf
    exact ⟨fault', hf', hsame⟩

/-- **The containment of the fault stays bound** under every section that does not contain the fault again. -/
theorem Bound.after (h : Bound i f answers covered) (c : Call)
    (hc : ∀ expected, c.op ≠ .authorizeContainment f expected) : Bound (c.after i) f answers covered := by
  obtain ⟨fault, hf, hcontained, hanswers⟩ := h
  obtain ⟨fault', hf', hsame⟩ := fault_kept c hf hc
  refine ⟨fault', hf', ?_, ?_⟩
  · rw [hsame]
    intro hvalid
    obtain ⟨d, hd, hgeneration, hcovered⟩ := hcontained hvalid
    obtain ⟨d', hd', hsame', hin⟩ := containment_kept c hd
    exact ⟨d', hd', hsame'.trans hgeneration, fun k hk => hin k (hcovered k hk)⟩
  · rw [hsame]
    exact hanswers

end Kept

/-- a section of something else leaves the entry of the incarnation alone -/
theorem entry_after (c : Call) (i : Impl) (h : ∀ fault, c.op ≠ .noteAuthorityLoss ⟨worker, boot⟩ fault) :
    entry worker boot (c.after i) = entry worker boot i := by
  have hframe := frame_run c i
  obtain ⟨clk, op⟩ := c
  unfold entry
  cases op
  case noteAuthorityLoss key fault =>
    show (i.authorityLossFaults.insert key fault).find ⟨worker, boot⟩ = _
    rw [OrderedMap.find_insert, if_neg]
    intro hkey
    exact h fault (by rw [hkey])
  all_goals rw [hframe.losses (by simp [Op.parts])]

/-! ## Commitments -/

/-- what a request for a containment does: nothing, or it is admitted and the fault gets a new containment -/
theorem authorizeContainment_spec (clk : Clock) (id : FaultId) (expected : FaultGeneration) (i : Impl) :
    ((authorizeContainment clk id expected i).impl = i ∧ (authorizeContainment clk id expected i).result.isOk = false) ∨
      ∃ fault radius, admitContainment id expected i = .ok fault ∧ admitRadius fault i = .ok radius ∧
        (authorizeContainment clk id expected i).result = .ok (committed clk id fault radius i) ∧
        (authorizeContainment clk id expected i).impl.state.faults = i.state.faults.insert id { fault with
          state := .containmentInProgress, containmentGeneration := radius.generation, lastUpdatedMs := clk 0 } ∧
        (authorizeContainment clk id expected i).impl.state.containments =
          i.state.containments.emplace radius.generation (committed clk id fault radius i) := by
  cases hfault : admitContainment id expected i with
  | error e =>
    refine .inl ?_
    unfold authorizeContainment
    rw [hfault]
    exact ⟨rfl, rfl⟩
  | ok fault =>
    cases hradius : admitRadius fault i with
    | error e =>
      refine .inl ?_
      unfold authorizeContainment
      rw [hfault]
      dsimp only
      rw [hradius]
      exact ⟨rfl, rfl⟩
    | ok radius =>
      refine .inr ⟨fault, radius, rfl, hradius, ?_, ?_, (authorizeContainment_stored clk hfault hradius).1⟩
      · rw [authorizeContainment_admitted clk hfault hradius]
        unfold committed plannedBy
        rw [← fenced_policy clk id fault radius i]
        rfl
      · rw [authorizeContainment_admitted clk hfault hradius]
        exact commitContainment_faults clk id fault radius i

/-- what an admitted commitment leaves behind -/
structure Contained (i : Impl) (id : FaultId) (c : ContainmentRecord) (covered : List ResourceId) : Prop where
  named : ∃ fault, i.state.faults.find id = some fault ∧ fault.containmentGeneration = c.generation
  valid : c.generation.valid = true
  stored : i.state.containments.find c.generation = some c
  mandatory : ∀ k ∈ covered, k ∈ c.mandatory

theorem Contained.bound {i : Impl} {id : FaultId} {c : ContainmentRecord} {covered : List ResourceId}
    (h : Contained i id c covered) {answers : List ContainmentRecord} (hanswers : ∀ a ∈ answers, a = c) :
    Bound i id answers covered := by
  obtain ⟨fault, hf, hnamed⟩ := h.named
  refine ⟨fault, hf, fun _ => ⟨c, ?_, hnamed.symm, fun k hk => .inl (h.mandatory k hk)⟩, fun a ha => ?_⟩
  · rw [hnamed]
    exact h.stored
  · rw [hanswers a ha, hnamed]
    exact ⟨h.valid, rfl⟩

/-- **A whole commitment** holds every resource of the incarnation. -/
theorem commits_contained {clk : Clock} {id : FaultId} {expected : FaultGeneration} {s : Scene}
    (h : CommitsWhole worker boot s id expected)
    (hok : (authorizeContainment clk id expected s.impl).result.isOk = true) :
    s.answers = [] ∧ ∃ c, (authorizeContainment clk id expected s.impl).result = .ok c ∧
      Contained (authorizeContainment clk id expected s.impl).impl id c (owned worker boot s.impl) := by
  rcases authorizeContainment_spec clk id expected s.impl with
    ⟨-, hrefused⟩ | ⟨fault, radius, hfault, hradius, hresult, hfaults, hcontainments⟩
  · rw [hok] at hrefused
    exact absurd hrefused.symm Bool.false_ne_true
  obtain ⟨hanswers, hw, hnew, hheld⟩ := h fault hfault
  have hgeneration := admitRadius_generation hradius
  refine ⟨hanswers, _, hresult, ?_⟩
  have hmandatory := @mem_computed s.impl.state { generation := nextGeneration s.impl.state.containmentGeneration } fault
    s.impl.state.topology hw radius (admitRadius_ok hradius)
  refine ⟨⟨_, hfaults ▸ OrderedMap.find_insert_self _ _ _, ?_⟩, ?_, ?_, fun k hk => (hmandatory k).mpr (hheld k hk)⟩
  · rfl
  · show radius.generation.valid = true
    rw [hgeneration]
    exact nextGeneration_valid _
  · show (authorizeContainment clk id expected s.impl).impl.state.containments.find radius.generation = _
    rw [hcontainments, OrderedMap.emplace_new _ _ (by rw [hgeneration]; exact (OrderedMap.has_eq_false _ _).mp hnew)]
    exact OrderedMap.find_insert_self _ _ _

/-! ## First sections -/

/-- a call for an incarnation that stands is admitted, and no other -/
theorem admitLoss_iff (i : Impl) : (∃ w, admitLoss worker boot i = .ok w) ↔ Stands worker boot i := by
  unfold admitLoss Stands
  rw [OrderedMap.has_iff]
  cases i.state.workers.incarnations.find ⟨worker, boot⟩ with
  | none => simp
  | some w =>
    dsimp only
    split_ifs with hcurrent
    · simp [hcurrent]
    · simp [hcurrent]

/-- everything the first section can do -/
inductive Lost (clk : Clock) (detail : Text) (time : UInt64) (i : Impl) : Prop where
  | rejected (e : Error) (hw : ∀ w, admitLoss worker boot i ≠ .ok w)
      (h : (authorityLost clk worker boot detail time i).result = .error e)
  | unscoped (w : WorkerRecord) (e : Error) (hw : admitLoss worker boot i = .ok w)
      (hknown : knownLoss ⟨worker, boot⟩ i = none)
      (h : (authorityLost clk worker boot detail time i).result = .error e)
  | known (w : WorkerRecord) (c : ContainmentRecord) (hw : admitLoss worker boot i = .ok w)
      (hknown : knownLoss ⟨worker, boot⟩ i = some c)
      (h : authorityLost clk worker boot detail time i = .answer i (.alreadyContained c))
  | fenced (w : WorkerRecord) (subject : ResourceId) (generation : ResourceGeneration) (hw : admitLoss worker boot i = .ok w)
      (hknown : knownLoss ⟨worker, boot⟩ i = none)
      (hsubject : (lossSubject (ownedBy boot i.state.topology.resources)).valid = true)
      (h : (authorityLost clk worker boot detail time i).result = .ok (.fenced subject generation))
      (hresources : (authorityLost clk worker boot detail time i).impl.state.topology.resources =
        editMap (fun r => some (fenceLost (clk 1) r)) ((ownedBy boot i.state.topology.resources).map Prod.fst)
          i.state.topology.resources)

theorem authorityLost_cases (clk : Clock) (detail : Text) (time : UInt64) (i : Impl) :
    Lost worker boot clk detail time i := by
  cases hw : admitLoss worker boot i with
  | error e =>
    refine .rejected e (fun w h => by rw [hw] at h; cases h) ?_
    unfold authorityLost
    rw [hw]
    rfl
  | ok w =>
    cases hknown : knownLoss ⟨worker, boot⟩ i with
    | some c =>
      refine .known w c hw hknown ?_
      unfold authorityLost
      rw [hw]
      dsimp only
      rw [hknown]
    | none =>
      by_cases hsubject : (lossSubject (ownedBy boot i.state.topology.resources)).valid = true
      · have hstep : ∃ subject generation j events event entry, authorityLost clk worker boot detail time i =
            commit j (clk 0) entry [] event events (.fenced subject generation) ∧ j.state.topology.resources =
              editMap (fun r => some (fenceLost (clk 1) r)) ((ownedBy boot i.state.topology.resources).map Prod.fst)
                i.state.topology.resources := by
          unfold authorityLost
          rw [hw]
          dsimp only
          rw [hknown]
          exact ⟨_, _, _, _, _, _, if_neg (not_not.mpr hsubject), editEach_resources _ _ _⟩
        obtain ⟨subject, generation, j, events, event, entry, hstep, hresources⟩ := hstep
        refine .fenced w subject generation hw hknown hsubject ?_ ?_
        · rw [hstep]
          rfl
        · rw [hstep]
          exact hresources
      · obtain ⟨e, -, he⟩ := @Rejections.authorityLost_unscoped clk _ _ detail time _ _ hw hknown hsubject
        refine .unscoped w e hw hknown ?_
        rw [he]

section Known

variable {i : Impl} {f : FaultId} {answers : List ContainmentRecord} {covered : List ResourceId}

/-- what the table answers is the containment of the fault, as every answer before -/
theorem Bound.known (h : Bound i f answers covered) (hentry : entry worker boot i = some f) {c : ContainmentRecord}
    (hknown : knownLoss ⟨worker, boot⟩ i = some c) :
    Bound i f (c :: answers) covered ∧ (∀ a ∈ answers, a.generation = c.generation) ∧
      ∀ k ∈ covered, k ∈ c.mandatory ∨ k ∈ c.released := by
  obtain ⟨fault, hf, hcontained, hanswers⟩ := h
  obtain ⟨f', hf', fault', hfault', hif⟩ : ∃ f', i.authorityLossFaults.find ⟨worker, boot⟩ = some f' ∧ ∃ fault',
      i.state.faults.find f' = some fault' ∧ (if fault'.containmentGeneration.valid then
        i.state.containments.find fault'.containmentGeneration else none) = some c := by
    obtain ⟨f', hf', hrest⟩ := Option.bind_eq_some_iff.mp hknown
    exact ⟨f', hf', Option.bind_eq_some_iff.mp hrest⟩
  obtain rfl := Option.some.inj (hf'.symm.trans hentry)
  obtain rfl := Option.some.inj (hfault'.symm.trans hf)
  split_ifs at hif with hvalid
  obtain ⟨d, hd, hgeneration, hin⟩ := hcontained hvalid
  obtain rfl := Option.some.inj (hd.symm.trans hif)
  refine ⟨⟨_, hf, hcontained, ?_⟩, ?_, hin⟩
  · intro a ha
    rcases List.mem_cons.mp ha with rfl | ha
    · exact ⟨hvalid, hgeneration⟩
    · exact hanswers a ha
  · intro a ha
    exact (hanswers a ha).2.trans hgeneration.symm

/-- once the fault of the table was contained and answered, the table answers -/
theorem Bound.answered (h : Bound i f answers covered) (hentry : entry worker boot i = some f) (hne : answers ≠ []) :
    ∃ c, knownLoss ⟨worker, boot⟩ i = some c := by
  obtain ⟨fault, hf, hcontained, hanswers⟩ := h
  obtain ⟨a, ha⟩ := List.exists_mem_of_ne_nil answers hne
  obtain ⟨hvalid, -⟩ := hanswers a ha
  obtain ⟨c, hc, -⟩ := hcontained hvalid
  refine ⟨c, ?_⟩
  unfold knownLoss
  rw [show i.authorityLossFaults.find ⟨worker, boot⟩ = some f from hentry, Option.bind_eq_bind, Option.bind_some, hf,
    Option.bind_eq_bind, Option.bind_some, if_pos hvalid]
  exact hc

/-- the table answers for a fault the calls created only -/
theorem entry_of_known {c : ContainmentRecord} (hknown : knownLoss ⟨worker, boot⟩ i = some c) :
    ∃ f, entry worker boot i = some f := by
  obtain ⟨f, hf, -⟩ := Option.bind_eq_some_iff.mp hknown
  exact ⟨f, hf⟩

end Known

/-! ## Publications -/

/-- an observation the index does not know is refused, or stored as a fault that is not contained -/
theorem publishFault_unknown (clk : Clock) {evidence : FaultEvidence} {i : Impl}
    (h : i.faultByDigest.find (normalizeEvidence evidence i).digest = none) :
    (∃ e, (publishFault clk evidence i).result = .error e) ∨
      ∃ f, (publishFault clk evidence i).result = .ok f ∧ i.state.faults.has f.evidence.id = false ∧
        (publishFault clk evidence i).impl.state.faults.find f.evidence.id = some f ∧
        f.containmentGeneration.valid = false := by
  cases publishFault_cases clk evidence i with
  | rejected j e _ _ _ hstep => exact .inl ⟨e, by rw [hstep]; rfl⟩
  | refused e _ _ _ hstep => exact .inl ⟨e, by rw [hstep]; rfl⟩
  | duplicate id _ hknown _ =>
    rw [h] at hknown
    cases hknown
  | fresh _ _ hadmitted hstep =>
    rw [← admitFault_allocate _ evidence] at hadmitted
    obtain ⟨hnew, hstored, -, hresult⟩ := storeFault_stored clk hadmitted
    rw [(allocateFault_reads evidence i).1] at hnew hresult
    refine .inr ⟨_, by rw [hstep, hresult], (OrderedMap.has_eq_false _ _).mpr hnew, ?_, rfl⟩
    rw [hstep, hstored, (allocateFault_reads evidence i).1]
    exact OrderedMap.find_insert_self _ _ _

/-! ## Each move keeps the invariant -/

theorem applyEvent_losses (e : DurableEvent.Event) (i : Impl) :
    (applyEvent e i).authorityLossFaults = i.authorityLossFaults := by
  obtain ⟨kind, body, history⟩ := e
  cases kind
  case history => cases history <;> rfl
  all_goals rfl

section Steps

variable {worker boot} {s : Scene}

/-- the engine moves, or calls end, and the ledger stays -/
theorem Inv.moved (h : Inv worker boot s) {i : Impl} {calls : OrderedMap ℕ Stage} {covered : List ResourceId}
    (hentry : entry worker boot i = entry worker boot s.impl)
    (horderly : Orderly calls s.created s.forgotten (entry worker boot s.impl))
    (hspent : s.committed ≠ [] → ∀ n a, calls.find n = some a → a.underway = false)
    (hbound : ∀ f, s.created = [f] → s.forgotten = false → Bound i f s.answers covered) :
    Inv worker boot { s with impl := i, calls := calls, covered := covered } where
  orderly := hentry.symm ▸ horderly
  short := h.short
  idle := h.idle
  once := h.once
  spent := hspent
  table f hf := h.table f (hentry ▸ hf)
  noted hanswers hforgotten := hentry.symm ▸ h.noted hanswers hforgotten
  same := h.same
  bound := hbound

/-- the containment of the fault stays bound, or a whole commitment binds it anew -/
theorem Inv.bound_after (h : Inv worker boot s) (c : Call) (hwhole : ∀ id expected,
    c.op = .authorizeContainment id expected → id ∈ s.created → CommitsWhole worker boot s id expected) (f : FaultId)
    (hf : s.created = [f]) (hforgotten : s.forgotten = false) :
    Bound (c.after s.impl) f s.answers (s.coverage worker boot c.clk c.op) := by
  have hbound := h.bound f hf hforgotten
  by_cases hcommit : ∃ expected, c.op = .authorizeContainment f expected
  · obtain ⟨expected, hop⟩ := hcommit
    have hmine := hwhole f expected hop (hf ▸ List.mem_singleton_self f)
    obtain ⟨clk, op⟩ := c
    subst hop
    show Bound (authorizeContainment clk f expected s.impl).impl f s.answers (if f ∈ s.created ∧ _ then _ else _)
    by_cases hok : (authorizeContainment clk f expected s.impl).result.isOk = true
    · rw [if_pos ⟨hf ▸ List.mem_singleton_self f, hok⟩]
      obtain ⟨hanswers, d, -, hd⟩ := commits_contained worker boot hmine hok
      refine hd.bound fun a ha => ?_
      rw [hanswers] at ha
      exact absurd ha List.not_mem_nil
    · rw [if_neg fun hboth => hok hboth.2]
      rcases authorizeContainment_spec clk f expected s.impl with ⟨hsame, -⟩ | ⟨_, _, -, -, hresult, -⟩
      · rw [hsame]
        exact hbound
      · rw [hresult] at hok
        exact absurd rfl hok
  · have hcovered : s.coverage worker boot c.clk c.op = s.covered := by
      obtain ⟨clk, op⟩ := c
      cases op
      case authorizeContainment id expected =>
        refine if_neg fun hin => hcommit ⟨expected, ?_⟩
        have hid : id ∈ [f] := hf ▸ hin.1
        rw [List.mem_singleton.mp hid]
      all_goals rfl
    rw [hcovered]
    exact hbound.after c fun expected hop => hcommit ⟨expected, hop⟩

/-- one call is past its first section -/
theorem Inv.only (h : Inv worker boot s) {n : ℕ} {a : Stage} (hn : s.calls.find n = some a) (ha : a.underway = true) :
    ∀ m b, s.calls.find m = some b → b.underway = true → m = n :=
  fun m b hb hunder => h.orderly.single m b n a hb hn hunder ha

/-- what is committed is committed by a call that ended -/
theorem Inv.uncommitted (h : Inv worker boot s) {n : ℕ} {a : Stage} (hn : s.calls.find n = some a)
    (ha : a.underway = true) : s.committed = [] := by
  by_contra hne
  rw [h.spent hne n a hn] at ha
  exact Bool.false_ne_true ha

/-- while nothing is created, the calls go on -/
theorem Inv.starts (h : Inv worker boot s) (hcreated : s.created = []) {i : Impl} {calls : OrderedMap ℕ Stage}
    (hentry : entry worker boot i = entry worker boot s.impl)
    (horderly : Orderly calls s.created s.forgotten (entry worker boot s.impl)) :
    Inv worker boot { s with impl := i, calls := calls } := by
  refine h.moved hentry horderly (fun hne => absurd (h.idle hcreated).2.1 hne) fun f hf => ?_
  rw [hcreated] at hf
  cases hf

/-- a waiting call ends, and the engine moved by a section that contains nothing -/
theorem Inv.ends (h : Inv worker boot s) (n : ℕ) (c : Call) (hnote : ∀ fault, c.op ≠ .noteAuthorityLoss ⟨worker, boot⟩ fault)
    (hcommit : ∀ id expected, c.op ≠ .authorizeContainment id expected) :
    Inv worker boot { s with impl := c.after s.impl, calls := s.calls.erase n } := by
  refine h.moved (entry_after worker boot c s.impl hnote) (h.orderly.sub (find_erase_sub n)) ?_ ?_
  · intro hne m a ha
    exact h.spent hne m a (find_erase_sub n m a ha)
  · intro f hf hforgotten
    exact (h.bound f hf hforgotten).after c fun expected => hcommit f expected

/-- a first section -/
theorem Inv.lost (h : Inv worker boot s) (n : ℕ) (kind : FaultKind) (detail : Text) (time : UInt64) (clk : Clock)
    (durable : Bool) (hfinds : Stands worker boot s.impl → FindsWhole worker boot s) :
    Inv worker boot (s.turn worker boot n clk durable (.lost kind detail time)) := by
  have hleft := h.ends n ⟨clk, .authorityLost worker boot detail time⟩ (fun _ hop => by cases hop)
    (fun _ _ hop => by cases hop)
  have himpl : (⟨clk, .authorityLost worker boot detail time⟩ : Call).after s.impl =
      (authorityLost clk worker boot detail time s.impl).impl := rfl
  rw [himpl] at hleft
  unfold Scene.turn
  dsimp only
  cases authorityLost_cases worker boot clk detail time s.impl with
  | rejected e _ he =>
    rw [he]
    exact hleft
  | unscoped w e _ _ he =>
    rw [he]
    exact hleft
  | known w c hw hknown he =>
    rw [he] at hleft ⊢
    obtain ⟨f, hentry⟩ := entry_of_known worker boot hknown
    obtain ⟨hcreated, hforgotten⟩ := h.table f hentry
    obtain ⟨hbound, hsame, -⟩ := (h.bound f hcreated hforgotten).known worker boot hentry hknown
    have hall : ∀ a ∈ c :: s.answers, a.generation = c.generation := by
      intro a ha
      rcases List.mem_cons.mp ha with rfl | ha
      · rfl
      · exact hsame a ha
    exact {
      orderly := hleft.orderly
      short := h.short
      idle := fun hnone => absurd (hcreated.symm.trans hnone) (by simp)
      once := h.once
      spent := hleft.spent
      table := h.table
      noted := fun _ _ => ⟨f, hentry⟩
      same := fun a ha b hb => (hall a ha).trans (hall b hb).symm
      bound := by
        intro f' hf' _
        obtain rfl := List.singleton_inj.mp (hcreated.symm.trans hf')
        exact hbound }
  | fenced w subject generation hw hknown hsubject he _ =>
    obtain ⟨hcreated, hwaiting, -⟩ := (hfinds ((admitLoss_iff worker boot s.impl).mp ⟨w, hw⟩)).alone hknown hsubject
    rw [he]
    dsimp only
    split_ifs
    · refine h.starts hcreated (entry_after worker boot ⟨clk, .authorityLost worker boot detail time⟩ s.impl
        fun _ hop => by cases hop) (Orderly.insert (fun m b hb hunder => ?_) hcreated)
      rw [hwaiting m b hb] at hunder
      exact absurd hunder Bool.false_ne_true
    · exact hleft

/-- a call reads the epoch -/
theorem Inv.read (h : Inv worker boot s) {n : ℕ} {kind : FaultKind} {detail : Text} {time : UInt64} {subject : ResourceId}
    {generation : ResourceGeneration} (clk : Clock) (durable : Bool)
    (hn : s.calls.find n = some (.read kind detail time subject generation)) :
    Inv worker boot (s.turn worker boot n clk durable (.read kind detail time subject generation)) := by
  have hcreated : s.created = [] := h.orderly.fits n _ hn
  exact h.starts hcreated rfl (Orderly.insert (h.only hn rfl) hcreated)

/-- a call publishes -/
theorem Inv.publish (h : Inv worker boot s) {n : ℕ} {evidence : FaultEvidence} (clk : Clock) (durable : Bool)
    (hn : s.calls.find n = some (.publish evidence))
    (hunknown : s.impl.faultByDigest.find (normalizeEvidence evidence s.impl).digest = none) :
    Inv worker boot (s.turn worker boot n clk durable (.publish evidence)) := by
  have hcreated : s.created = [] := h.orderly.fits n _ hn
  obtain ⟨hforgotten, hcommitted, hanswers⟩ := h.idle hcreated
  have hentry : entry worker boot (publishFault clk evidence s.impl).impl = entry worker boot s.impl :=
    entry_after worker boot ⟨clk, .publishFault evidence⟩ s.impl fun _ hop => by cases hop
  unfold Scene.turn
  dsimp only
  rcases publishFault_unknown clk hunknown with ⟨e, he⟩ | ⟨f, hf, hnew, hfind, hinvalid⟩
  · rw [he]
    exact h.starts hcreated hentry (Orderly.erase (h.only hn rfl) _ _ _)
  rw [hf]
  dsimp only
  have hnone : entry worker boot (publishFault clk evidence s.impl).impl = none := by
    rw [hentry]
    refine Option.eq_none_iff_forall_ne_some.mpr fun f' hf' => ?_
    have hsome := (h.table f' hf').1
    rw [hcreated] at hsome
    cases hsome
  have hnext : ∀ calls : OrderedMap ℕ Stage,
      Orderly calls [f.evidence.id] s.forgotten (entry worker boot (publishFault clk evidence s.impl).impl) →
      Inv worker boot { s with
        impl := (publishFault clk evidence s.impl).impl, calls := calls
        created := if s.impl.state.faults.has f.evidence.id then s.created else f.evidence.id :: s.created } := by
    intro calls horderly
    rw [hnew, if_neg Bool.false_ne_true, hcreated]
    exact {
      orderly := horderly
      short := le_rfl
      idle := fun h => by cases h
      once := h.once
      spent := fun hne => absurd hcommitted hne
      table := fun f' hf' => by rw [hnone] at hf'; cases hf'
      noted := fun hne => absurd hanswers hne
      same := h.same
      bound := by
        intro f' hf' _
        obtain rfl := List.singleton_inj.mp hf'
        refine ⟨f, hfind, fun hvalid => ?_, fun a ha => ?_⟩
        · rw [hinvalid] at hvalid
          exact absurd hvalid Bool.false_ne_true
        · have ha' : a ∈ s.answers := ha
          rw [hanswers] at ha'
          exact absurd ha' List.not_mem_nil }
  cases durable with
  | true =>
    have hfits : (Stage.note f.evidence.id f.evidence.generation).Fits [f.evidence.id] s.forgotten
        (entry worker boot (publishFault clk evidence s.impl).impl) := ⟨rfl, hforgotten⟩
    exact hnext _ (Orderly.insert (h.only hn rfl) hfits)
  | false => exact hnext _ (Orderly.erase (h.only hn rfl) _ _ _)

/-- a call remembers its fault -/
theorem Inv.note (h : Inv worker boot s) {n : ℕ} {fault : FaultId} {generation : FaultGeneration} (clk : Clock)
    (durable : Bool) (hn : s.calls.find n = some (.note fault generation)) :
    Inv worker boot (s.turn worker boot n clk durable (.note fault generation)) := by
  obtain ⟨hcreated, hforgotten⟩ := h.orderly.fits n _ hn
  have hentry : entry worker boot (noteAuthorityLoss ⟨worker, boot⟩ fault s.impl).impl = some fault :=
    OrderedMap.find_insert_self _ _ _
  exact {
    orderly := Orderly.insert (h.only hn rfl) ⟨hcreated, hforgotten, hentry⟩
    short := h.short
    idle := h.idle
    once := h.once
    spent := fun hne => absurd (h.uncommitted hn rfl) hne
    table := fun f hf => (Option.some.inj (hentry.symm.trans hf)) ▸ ⟨hcreated, hforgotten⟩
    noted := fun _ _ => ⟨fault, hentry⟩
    same := h.same
    bound := fun f hf hf' =>
      (h.bound f hf hf').after ⟨clk, .noteAuthorityLoss ⟨worker, boot⟩ fault⟩ fun _ hop => by cases hop }

/-- a call contains its fault -/
theorem Inv.authorize (h : Inv worker boot s) {n : ℕ} {fault : FaultId} {generation : FaultGeneration} (clk : Clock)
    (durable : Bool) (hn : s.calls.find n = some (.authorize fault generation))
    (hwhole : CommitsWhole worker boot s fault generation) :
    Inv worker boot (s.turn worker boot n clk durable (.authorize fault generation)) := by
  obtain ⟨hcreated, hforgotten, hentry⟩ := h.orderly.fits n _ hn
  have hcommitted := h.uncommitted hn rfl
  have hkept : entry worker boot (authorizeContainment clk fault generation s.impl).impl = some fault :=
    (entry_after worker boot ⟨clk, .authorizeContainment fault generation⟩ s.impl fun _ hop => by cases hop).trans hentry
  have hcalls := fun forgotten entry => Orderly.erase (h.only hn rfl) s.created forgotten entry
  have hended := h.moved (hkept.trans hentry.symm) (hcalls _ _) (fun hne => absurd hcommitted hne)
    (h.bound_after ⟨clk, .authorizeContainment fault generation⟩ fun id expected hop _ => by
      cases hop
      exact hwhole)
  unfold Scene.turn
  dsimp only
  rcases hresult : (authorizeContainment clk fault generation s.impl).result with e | c
  · exact hended
  have hok : (authorizeContainment clk fault generation s.impl).result.isOk = true := by rw [hresult]; rfl
  obtain ⟨hanswers, c', hc', hcontained⟩ := commits_contained worker boot hwhole hok
  obtain rfl := Except.ok.inj (hc'.symm.trans hresult)
  have hall : ∀ a ∈ (if durable then c' :: s.answers else s.answers), a = c' := by
    intro a ha
    rw [hanswers] at ha
    split_ifs at ha
    · exact List.mem_singleton.mp ha
    · exact absurd ha List.not_mem_nil
  exact {
    orderly := hcalls _ _
    short := h.short
    idle := fun hnone => absurd (hcreated.symm.trans hnone) (by simp)
    once := by rw [hcommitted]; exact le_rfl
    spent := fun _ m a ha => by
      refine Bool.eq_false_iff.mpr fun hunder => ?_
      have hm := h.only hn rfl m a (find_erase_sub n m a ha) hunder
      rw [hm, OrderedMap.find_erase, if_pos rfl] at ha
      cases ha
    table := fun f hf => (Option.some.inj (hkept.symm.trans hf)) ▸ ⟨hcreated, hforgotten⟩
    noted := fun _ _ => ⟨fault, hkept⟩
    same := fun a ha b hb => by rw [hall a ha, hall b hb]
    bound := by
      intro f hf _
      obtain rfl := List.singleton_inj.mp (hcreated.symm.trans hf)
      show Bound _ _ _ (if fault ∈ s.created ∧ _ then _ else _)
      rw [if_pos ⟨hcreated ▸ List.mem_singleton_self fault, hok⟩]
      exact hcontained.bound hall }

/-- a restart or a recovery: the engine is as it was, or the table is clear -/
theorem Inv.interrupted (h : Inv worker boot s) {i : Impl} (hi : i = s.impl ∨ entry worker boot i = none) :
    Inv worker boot (s.interrupted worker boot i) := by
  have hsame : ∀ f, entry worker boot i = some f → i = s.impl := by
    intro f hf
    rcases hi with hi | hi
    · exact hi
    · rw [hi] at hf
      cases hf
  have hremembered : s.created ≠ [] → (s.interrupted worker boot i).forgotten = false →
      ∃ f, entry worker boot i = some f := by
    intro hne hforgotten
    simp only [Scene.interrupted, Bool.and_eq_false_iff, Bool.not_eq_false', List.isEmpty_iff] at hforgotten
    rcases hforgotten with hnone | hsome
    · exact absurd hnone hne
    · exact Option.ne_none_iff_exists'.mp fun hnone => by simp [hnone] at hsome
  exact {
    orderly := orderly_empty _ _ _
    short := h.short
    idle := fun hnone => by
      have hnone' : s.created = [] := hnone
      refine ⟨?_, (h.idle hnone).2⟩
      simp [Scene.interrupted, hnone']
    once := h.once
    spent := fun _ _ _ ha => absurd ha find_noCalls
    table := fun f hf => by
      have hf' : entry worker boot s.impl = some f := hsame f hf ▸ hf
      refine ⟨(h.table f hf').1, ?_⟩
      have hentry : entry worker boot i = some f := hf
      simp [Scene.interrupted, hentry]
    noted := fun hanswers hforgotten =>
      hremembered (fun hnone => hanswers (h.idle hnone).2.2) hforgotten
    same := h.same
    bound := fun f hf hforgotten => by
      have hcreated : s.created = [f] := hf
      obtain ⟨f', hf'⟩ := hremembered (by rw [hcreated]; simp) hforgotten
      obtain rfl := hsame f' hf'
      exact h.bound f hf (h.table f' hf').2 }

/-- a call arrives -/
theorem Inv.arrive (h : Inv worker boot s) (n : ℕ) (kind : FaultKind) (detail : Text) (time : UInt64) :
    Inv worker boot { s with calls := s.calls.insert n (.lost kind detail time) } := by
  have hinsert : ∀ m b, (s.calls.insert n (.lost kind detail time)).find m = some b → b.underway = true →
      s.calls.find m = some b := by
    intro m b hb hunder
    rw [OrderedMap.find_insert] at hb
    split_ifs at hb with hm
    · rw [← Option.some.inj hb] at hunder
      exact absurd hunder Bool.false_ne_true
    · exact hb
  refine h.moved rfl ⟨fun m b hb => ?_, fun m b m' b' hb hb' hunder hunder' => ?_⟩ (fun hne m b hb => ?_) h.bound
  · by_cases hunder : b.underway = true
    · exact h.orderly.fits m b (hinsert m b hb hunder)
    · exact Stage.fits_waiting (Bool.eq_false_iff.mpr hunder) _ _ _
  · exact h.orderly.single m b m' b' (hinsert m b hb hunder) (hinsert m' b' hb' hunder') hunder hunder'
  · refine Bool.eq_false_iff.mpr fun hunder => ?_
    rw [h.spent hne m b (hinsert m b hb hunder)] at hunder
    exact Bool.false_ne_true hunder

end Steps

/-- a recovery leaves the engine as it was, or clears the table -/
theorem recoverFromStore_entry (clk : ℕ → Clock) (io : ℕ → Io) (nowMs : UInt64) (s : Sys) :
    (recoverFromStore clk io nowMs s).1.impl = s.impl ∨
      entry worker boot (recoverFromStore clk io nowMs s).1.impl = none := by
  cases hr : Persistence.recover s.store with
  | error e =>
    refine .inl ?_
    unfold recoverFromStore
    rw [hr]
  | ok r =>
    have hclear : (recoverFromStore clk io nowMs s).1.impl.authorityLossFaults = ∅ :=
      Durability.recoverFromStore_leaves (P := fun i => i.authorityLossFaults = ∅) (fun _ _ h => h) (fun _ _ _ h => h)
        (fun _ _ _ h => h) (fun _ _ _ _ h => h) (fun _ => rfl) (fun _ _ h => h)
        (fun e i h => (applyEvent_losses e i).trans h) (fun _ _ _ h => h) hr
    refine .inr ?_
    unfold entry
    rw [hclear]
    exact OrderedMap.find_empty _

/-- **Each move keeps the invariant.** -/
theorem inv_after (m : Move worker boot) (s : Scene) (hm : Careful worker boot m s) (h : Inv worker boot s) :
    Inv worker boot (m.after worker boot s) := by
  cases m with
  | other c hc =>
    refine h.moved (entry_after worker boot c s.impl fun fault hop => ?_) h.orderly h.spent
      (h.bound_after c fun id expected hop hid => hm id expected hop hid)
    rw [hop] at hc
    exact hc rfl
  | arrive n kind detail time =>
    show Inv worker boot (if _ then _ else _)
    split_ifs
    · exact h
    · exact h.arrive n kind detail time
  | advance n clk durable =>
    unfold Careful at hm
    unfold Move.after
    dsimp only at hm ⊢
    cases hn : s.calls.find n with
    | none => exact h
    | some stage =>
      rw [hn] at hm
      cases stage with
      | lost kind detail time => exact h.lost n kind detail time clk durable hm.2
      | read kind detail time subject generation => exact h.read clk durable hn
      | publish evidence => exact h.publish clk durable hn hm
      | note fault generation => exact h.note clk durable hn
      | authorize fault generation => exact h.authorize clk durable hn hm
  | restart clk config => exact h.interrupted (.inr (OrderedMap.find_empty _))
  | recover clk io nowMs store attached =>
    exact h.interrupted (recoverFromStore_entry worker boot clk io nowMs ⟨s.impl, store, attached⟩)

/-! ## The handling -/

section Handling

variable {worker boot} {s : Scene}

/-- once a call was answered, the next is answered with the same containment -/
theorem Inv.answers (h : Inv worker boot s) {n : ℕ} (clk : Clock) {kind : FaultKind} {detail : Text} {time : UInt64}
    (hn : s.calls.find n = some (.lost kind detail time)) (hstands : Stands worker boot s.impl)
    (hfinds : FindsWhole worker boot s) (hanswers : s.answers ≠ []) :
    ∃ c ∈ s.answer worker boot n clk, ∀ c' ∈ s.answers, c'.generation = c.generation := by
  obtain ⟨w, hw⟩ := (admitLoss_iff worker boot s.impl).mpr hstands
  have hforgotten := hfinds.remembered hanswers
  obtain ⟨f, hentry⟩ := h.noted hanswers hforgotten
  have hbound := h.bound f (h.table f hentry).1 hforgotten
  obtain ⟨c, hknown⟩ := hbound.answered worker boot hentry hanswers
  refine ⟨c, ?_, (hbound.known worker boot hentry hknown).2.1⟩
  unfold Scene.answer
  rw [hn]
  dsimp only
  cases authorityLost_cases worker boot clk detail time s.impl with
  | rejected e hno _ => exact absurd hw (hno w)
  | unscoped _ e _ hnone _ =>
    rw [hnone] at hknown
    cases hknown
  | known _ c' _ hknown' he =>
    obtain rfl := Option.some.inj (hknown.symm.trans hknown')
    rw [he]
    rfl
  | fenced _ _ _ _ hnone _ _ _ =>
    rw [hnone] at hknown
    cases hknown

/-- what a call is answered holds every resource of the incarnation -/
theorem Inv.complete (h : Inv worker boot s) {n : ℕ} {clk : Clock} {durable : Bool}
    (hm : Careful worker boot (.advance n clk durable) s) {c : ContainmentRecord} (hc : c ∈ s.answer worker boot n clk)
    {k : ResourceId} (hk : k ∈ owned worker boot s.impl) : k ∈ c.mandatory := by
  unfold Careful at hm
  unfold Scene.answer at hc
  dsimp only at hm
  split at hc
  · next kind detail time hn =>
    rw [hn] at hm
    cases authorityLost_cases worker boot clk detail time s.impl with
    | rejected e _ he => simp [he] at hc
    | unscoped w e _ _ he => simp [he] at hc
    | known w c' hw hknown he =>
      simp only [he, Step.answer, Option.mem_def, Option.some.injEq] at hc
      subst hc
      obtain ⟨f, hentry⟩ := entry_of_known worker boot hknown
      obtain ⟨hcreated, hforgotten⟩ := h.table f hentry
      obtain ⟨-, -, hin⟩ := (h.bound f hcreated hforgotten).known worker boot hentry hknown
      obtain ⟨hcovered, hreleased⟩ := (hm.2 ((admitLoss_iff worker boot s.impl).mp ⟨w, hw⟩)).answered c' hknown k hk
      exact (hin k hcovered).resolve_right hreleased
    | fenced w subject generation _ _ _ he _ => simp [he] at hc
  · next fault generation hn =>
    rw [hn] at hm
    have hresult : (authorizeContainment clk fault generation s.impl).result = .ok c := ok_of_mem_toOption hc
    obtain ⟨-, c', hc', hcontained⟩ := commits_contained worker boot hm (by rw [hresult]; rfl)
    obtain rfl := Except.ok.inj (hc'.symm.trans hresult)
    exact hcontained.mandatory k hk
  · cases hc

end Handling

end Incarnation

/-! ## Runs -/

/-- two resources of the worker, and the worker itself -/
def bound : List (Move ⟨1⟩ ⟨1⟩) := [
  .other ⟨ticks, .registerResource { id := ⟨1⟩, ownerWorker := ⟨1⟩, ownerBoot := ⟨1⟩ }⟩ trivial,
  .other ⟨ticks, .registerResource { id := ⟨2⟩, ownerWorker := ⟨1⟩, ownerBoot := ⟨1⟩ }⟩ trivial,
  .other ⟨ticks, .registerWorker ⟨1⟩ ⟨1⟩ [] {}⟩ trivial]

/-- both calls pass their first section, and each publishes -/
def overlapping : List (Move ⟨1⟩ ⟨1⟩) := bound ++ [
  .arrive 1 .processDeath [] 0, .arrive 2 .processDeath [1] 7, .advance 1 ticks true, .advance 2 ticks true,
  .advance 1 ticks true, .advance 2 ticks true, .advance 1 ticks true]

end FaultContainment.AuthorityLoss
