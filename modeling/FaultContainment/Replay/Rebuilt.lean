/-
An engine rebuilt from a replica.

A recovery ends with a replay and a safety net: the identities in use and the generations of the containments are counted
again. A replica that mirrors a fit engine has its records under their own identities, so the safety net leaves what it
mirrors alone and makes it fit to go on.

- `mirrors_applyAll`, `mirrors_counted`, `mirrors_beginEpoch`: what engines that mirror each other go through together.
- `mirrors_of_document`: states with the same document look the same.
- `Mirrors.sane`, `mirrors_derived`, `fit_derived`: a replica, and the engine rebuilt from it.
-/
import FaultContainment.Observations
import FaultContainment.StateDocument
import FaultContainment.Replay.Mirror

namespace FaultContainment.Replay

open FaultContainment.Lib FaultContainment.Ids FaultContainment.Enums FaultContainment.Records
open FaultContainment.DurableEvent FaultContainment.Engine FaultContainment.References
open FaultContainment.Dispatching (Numbered ActionsKeyed)
open FaultContainment.Observations (Cataloged find_rebuilt)
open FaultContainment.Incarnations (Genuine Settled endedAt endedAt_suspend deriveWorkers_same)
open FaultContainment.StateDocument (document)

/-! ## Engines that mirror each other -/

/-- a view after the same record on both sides -/
theorem View.same {V : Type} (v : View V) {i j : Impl} (h : v.see j = v.see i) (e : Event)
    (hkinds : e.kind ∈ v.kinds → v.see (applyEvent e j) = v.see (applyEvent e i)) :
    v.see (applyEvent e j) = v.see (applyEvent e i) := by
  by_cases hk : e.kind ∈ v.kinds
  · exact hkinds hk
  · rw [v.deaf e j hk, v.deaf e i hk, h]

theorem known_stored {m m' : Grouping.Resources} (h : known m' = known m) (k : ResourceId) (r : ResourceRecord) :
    known (m'.insert k r) = known (m.insert k r) := by
  refine OrderedMap.ext fun a => ?_
  have hfind := congrArg (OrderedMap.find · a) h
  rw [find_known, find_known] at hfind
  rw [find_known, find_known, OrderedMap.find_insert, OrderedMap.find_insert]
  split_ifs
  · rfl
  · exact hfind

/-- the same record keeps engines that mirror each other doing so -/
theorem mirrors_applyEvent {i j : Impl} (h : Mirrors i j) (e : Event) : Mirrors (applyEvent e i) (applyEvent e j) where
  resources := by
    refine resourceView.same h.resources e fun hk => ?_
    have hknown : known j.state.topology.resources = known i.state.topology.resources := h.resources
    obtain ⟨kind, body, history⟩ := e
    rcases List.mem_pair.mp hk with hk | hk
    · obtain rfl : kind = .resourceUpsert := hk
      exact known_stored hknown _ _
    · obtain rfl : kind = .resourceRemove := hk
      show known (j.state.topology.resources.erase body) = known (i.state.topology.resources.erase body)
      rw [known_erase, known_erase, hknown]
  domains := by
    refine domainView.same h.domains e fun hk => ?_
    obtain ⟨hc, hi, hf⟩ := charts_parts h.domains
    obtain ⟨kind, body, history⟩ := e
    cases kind
    case containmentDomainUpsert => exact charts_of_eq (bare_stored _ hc _ _) hi hf
    case containmentDomainRemove => exact charts_of_eq (bare_erased _ hc _) hi hf
    case isolationDomainUpsert => exact charts_of_eq hc (bare_stored _ hi _ _) hf
    case isolationDomainRemove => exact charts_of_eq hc (bare_erased _ hi _) hf
    case failureDomainUpsert => exact charts_of_eq hc hi (bare_stored _ hf _ _)
    case failureDomainRemove => exact charts_of_eq hc hi (bare_erased _ hf _)
    all_goals simp [domainView, domainKinds] at hk
  edges := by
    refine edgeView.same h.edges e fun hk => ?_
    have hedges : j.state.topology.dependencies.edges = i.state.topology.dependencies.edges := h.edges
    obtain ⟨kind, body, history⟩ := e
    rcases List.mem_pair.mp hk with hk | hk
    · obtain rfl : kind = .dependencyUpsert := hk
      exact congrArg (fun m => m.insert body.id body) hedges
    · obtain rfl : kind = .dependencyRemove := hk
      show (Dependency.eraseEdge j.state.topology.dependencies body).edges =
        (Dependency.eraseEdge i.state.topology.dependencies body).edges
      rw [edges_eraseEdge, edges_eraseEdge, hedges]
  workers := by
    show roster (applyEvent e j).state.workers = roster (applyEvent e i).state.workers
    rw [Incarnations.workers_applyEvent, Incarnations.workers_applyEvent]
    exact roster_record h.workers e
  policy := by
    refine policyView.same h.policy e fun hk => ?_
    obtain ⟨kind, body, history⟩ := e
    rcases List.mem_pair.mp hk with hk | hk
    · obtain rfl : kind = .policySet := hk
      rfl
    · obtain rfl : kind = .counters := hk
      have hpolicy : j.state.policy = i.state.policy := congrArg Prod.fst h.policy
      exact Prod.ext hpolicy rfl
  faults := by
    refine faultView.same h.faults e fun hk => ?_
    obtain ⟨kind, body, history⟩ := e
    obtain rfl : kind = .faultUpsert := List.mem_singleton.mp hk
    exact congrArg (fun m => m.insert body.evidence.id body) h.faults
  containments := by
    refine containmentView.same h.containments e fun hk => ?_
    obtain ⟨kind, body, history⟩ := e
    obtain rfl : kind = .containmentUpsert := List.mem_singleton.mp hk
    exact congrArg (fun m => m.insert body.generation body) h.containments
  actions := by
    refine actionView.same h.actions e fun hk => ?_
    obtain ⟨kind, body, history⟩ := e
    obtain rfl : kind = .actionUpsert := List.mem_singleton.mp hk
    show settled (j.state.actions.insert body.id body) = settled (i.state.actions.insert body.id body)
    rw [settled_insert, settled_insert]
    exact congrArg (fun m => m.insert body.id (makeAmbiguous body)) h.actions
  degraded := by
    refine degradedView.same h.degraded e fun hk => ?_
    obtain ⟨kind, body, history⟩ := e
    obtain rfl : kind = .degradedUpsert := List.mem_singleton.mp hk
    exact Prod.ext (congrArg (fun p => p.1.insert body.1.id body.1) h.degraded)
      (congrArg (fun p => p.2.insert body.2.contract body.2) h.degraded)
  stamps := by
    refine stampView.same h.stamps e fun hk => ?_
    obtain ⟨kind, body, history⟩ := e
    obtain rfl : kind = .counters := List.mem_singleton.mp hk
    rfl

theorem mirrors_applyAll {i j : Impl} (h : Mirrors i j) (es : List Event) : Mirrors (applyAll es i) (applyAll es j) := by
  induction es generalizing i j with
  | nil => exact h
  | cons e es ih => exact ih (mirrors_applyEvent h e)

/-- a current boot is derived from the identities of the incarnations alone -/
theorem currentBoot_derive (w : WorkerRegistry) : (deriveWorkers w).currentBoot =
    (w.incarnations.toList.map Prod.fst).foldl (fun m k => m.emplace k.worker k.boot) w.currentBoot := by
  unfold deriveWorkers
  generalize w.incarnations.toList = es
  induction es generalizing w with
  | nil => rfl
  | cons e es ih => exact ih _

theorem incarnations_derive (w : WorkerRegistry) : (deriveWorkers w).incarnations = w.incarnations := by
  unfold deriveWorkers
  generalize w.incarnations.toList = es
  induction es generalizing w with
  | nil => rfl
  | cons e es ih => exact ih _

theorem keys_mapVals {κ ν : Type} [LinearOrder κ] (m : OrderedMap κ ν) (f : κ → ν → ν) :
    (m.mapVals f).toList.map Prod.fst = m.toList.map Prod.fst := by
  unfold OrderedMap.toList OrderedMap.mapVals
  rw [Std.ExtTreeMap.toList_map, List.map_map]
  rfl

theorem roster_derive {w d : WorkerRegistry} (h : roster w = roster d) : roster (deriveWorkers w) = roster (deriveWorkers d) := by
  have hincarnations : w.incarnations.mapVals (fun _ r => enrolled r) = d.incarnations.mapVals fun _ r => enrolled r :=
    congrArg Prod.fst h
  have hcurrent : w.currentBoot = d.currentBoot := congrArg Prod.snd h
  unfold roster
  rw [incarnations_derive, incarnations_derive, currentBoot_derive, currentBoot_derive, hincarnations, hcurrent,
    ← keys_mapVals w.incarnations fun _ r => enrolled r, ← keys_mapVals d.incarnations fun _ r => enrolled r, hincarnations]

/-- the derived counters of engines that mirror each other -/
theorem mirrors_counted {i j : Impl} (h : Mirrors i j) : Mirrors (deriveCounters i) (deriveCounters j) where
  resources := h.resources
  domains := h.domains
  edges := h.edges
  workers := roster_derive h.workers
  policy := h.policy
  faults := h.faults
  containments := h.containments
  actions := h.actions
  degraded := h.degraded
  stamps := by
    have hcontainments : j.state.containments = i.state.containments := h.containments
    have hgeneration : j.state.containmentGeneration = i.state.containmentGeneration :=
      congrArg (fun p => p.2.1) h.stamps
    have hverification : j.state.verificationGeneration = i.state.verificationGeneration :=
      congrArg (fun p => p.2.2) h.stamps
    have hepoch : j.state.epoch = i.state.epoch := congrArg Prod.fst h.stamps
    unfold deriveCounters stampView
    dsimp only
    rw [hcontainments, hgeneration, hverification, hepoch]

theorem mirrors_takeOver (last : ℕ) (nowMs : UInt64) (i : Impl) : Mirrors i (takeOver last nowMs i) :=
  ⟨rfl, rfl, rfl, rfl, rfl, rfl, rfl, rfl, rfl, rfl⟩

/-- engines that mirror each other still do in the next epoch -/
theorem mirrors_beginEpoch {i j : Impl} (h : Mirrors i j) (clk clk' : Clock) (nowMs nowMs' : UInt64)
    (reason reason' : Text) :
    Mirrors (beginEpoch clk nowMs reason i).impl (beginEpoch clk' nowMs' reason' j).impl where
  resources := by
    have hshown : ∀ i : Impl, known (i.state.topology.resources.mapVals fun _ r => distrust r) =
        known i.state.topology.resources := fun i =>
      known_mapVals (f := distrust) (fun _ => rfl) _
    show known (j.state.topology.resources.mapVals fun _ r => distrust r) =
      known (i.state.topology.resources.mapVals fun _ r => distrust r)
    rw [hshown, hshown]
    exact h.resources
  domains := h.domains
  edges := h.edges
  workers := by
    have hsuspended : ∀ w : WorkerRegistry, roster { w with incarnations := w.incarnations.mapVals fun _ r => suspend r } =
        roster w := by
      intro w
      refine Prod.ext (OrderedMap.ext fun k => ?_) rfl
      dsimp only [roster]
      rw [OrderedMap.find_mapVals, OrderedMap.find_mapVals, OrderedMap.find_mapVals, Option.map_map]
      exact congrArg (fun f => Option.map f (w.incarnations.find k)) (funext enrolled_suspend)
    show roster { j.state.workers with incarnations := j.state.workers.incarnations.mapVals fun _ r => suspend r } =
      roster { i.state.workers with incarnations := i.state.workers.incarnations.mapVals fun _ r => suspend r }
    rw [hsuspended, hsuspended]
    exact h.workers
  policy := h.policy
  faults := h.faults
  containments := h.containments
  actions := by
    show settled (j.state.actions.mapVals fun _ a => makeAmbiguous a) =
      settled (i.state.actions.mapVals fun _ a => makeAmbiguous a)
    have htwice : ∀ m : OrderedMap ActionId ContainmentAction, settled (m.mapVals fun _ a => makeAmbiguous a) = settled m :=
      settled_twice
    rw [htwice, htwice]
    exact h.actions
  degraded := h.degraded
  stamps := by
    have hepoch : j.state.epoch = i.state.epoch := congrArg Prod.fst h.stamps
    have hstamps : (j.state.containmentGeneration, j.state.verificationGeneration) =
      (i.state.containmentGeneration, i.state.verificationGeneration) := congrArg Prod.snd h.stamps
    exact Prod.ext (congrArg nextGeneration hepoch) hstamps

/-! ## What a replica inherits -/

theorem Mirrors.symm {i j : Impl} (h : Mirrors i j) : Mirrors j i :=
  ⟨h.resources.symm, h.domains.symm, h.edges.symm, h.workers.symm, h.policy.symm, h.faults.symm, h.containments.symm,
    h.actions.symm, h.degraded.symm, h.stamps.symm⟩

/-- two states with the same document look the same -/
theorem mirrors_of_document {i j : Impl} (h : document j.state = document i.state) : Mirrors i j where
  resources := congrArg (fun d : StateDocument.Document => known d.topology.resources) h
  domains := congrArg (fun d : StateDocument.Document => (bare containmentDomains d.topology.containmentDomains,
    bare isolationDomains d.topology.isolationDomains, bare failureDomains d.topology.failureDomains)) h
  edges := congrArg (fun d : StateDocument.Document => d.topology.edges) h
  workers := congrArg (fun d : StateDocument.Document => (d.incarnations.mapVals fun _ r => enrolled r, d.currentBoot)) h
  policy := congrArg (fun d : StateDocument.Document => (d.policy, d.policyGeneration)) h
  faults := congrArg (fun d : StateDocument.Document => d.faults) h
  containments := congrArg (fun d : StateDocument.Document => d.containments) h
  actions := congrArg (fun d : StateDocument.Document => settled d.actions) h
  degraded := congrArg (fun d : StateDocument.Document => (d.degradedContracts, d.degradedModes)) h
  stamps := congrArg (fun d : StateDocument.Document => (d.epoch, d.containmentGeneration, d.verificationGeneration)) h

theorem enrolled_keeps (w : WorkerRecord) :
    (enrolled w).key = w.key ∧ (enrolled w).registeredEpoch = w.registeredEpoch := by
  unfold enrolled suspend
  split_ifs <;> exact ⟨rfl, rfl⟩

/-- two registries with the same roster agree on which incarnations ended -/
theorem alike_of_roster {w d : WorkerRegistry} (h : roster w = roster d) : Incarnations.Alike w d where
  ended k := by
    have hfind := congrArg (fun p => OrderedMap.find p.1 k) h
    have hended : ∀ v : WorkerRegistry, endedAt v k = ((roster v).1.find k).map fun r => Incarnations.ended r.state := by
      intro v
      rw [← endedAt_suspend v k]
      unfold endedAt roster
      rw [OrderedMap.find_mapVals, OrderedMap.find_mapVals, Option.map_map, Option.map_map]
      refine Option.map_congr fun r _ => ?_
      unfold enrolled suspend
      cases hs : r.state <;> simp [holdsLiveAuthority, hs]
    rw [hended w, hended d]
    exact congrArg (Option.map _) hfind
  current worker := congrArg (fun p => OrderedMap.find p.2 worker) h

theorem genuine_of_roster {w d : WorkerRegistry} (h : roster w = roster d) (hg : Genuine d) : Genuine w := by
  intro k r hr
  have hfind : (w.incarnations.mapVals fun _ r => enrolled r).find k = (d.incarnations.mapVals fun _ r => enrolled r).find k :=
    congrArg (fun p => OrderedMap.find p.1 k) h
  rw [OrderedMap.find_mapVals, OrderedMap.find_mapVals, hr] at hfind
  obtain ⟨p, hp, heq⟩ := Option.map_eq_some_iff.mp hfind.symm
  have hr := enrolled_keeps r
  have hp' := enrolled_keeps p
  rw [heq] at hp'
  rw [← hr.1, ← hr.2, hp'.1, hp'.2]
  exact hg k p hp

/-- the entries of a map as they look once settled -/
theorem find_settled {m m' : OrderedMap ActionId ContainmentAction} (h : settled m' = settled m) {k : ActionId}
    {a' : ContainmentAction} (ha' : m'.find k = some a') : ∃ a, m.find k = some a ∧ a'.id = a.id := by
  have hid : ∀ a, (makeAmbiguous a).id = a.id := by
    intro a
    unfold makeAmbiguous
    split_ifs <;> rfl
  have hfind := congrArg (OrderedMap.find · k) h
  unfold settled at hfind
  rw [OrderedMap.find_mapVals, OrderedMap.find_mapVals, ha'] at hfind
  obtain ⟨a, ha, heq⟩ := Option.map_eq_some_iff.mp hfind.symm
  refine ⟨a, ha, ?_⟩
  rw [← hid a, heq, hid]

/-! ## Derived counters -/

/-- the next identity is past every identity in use -/
theorem lt_nextAfter {ids : List UInt64} (hroom : ∀ id ∈ ids, id.toNat + 1 < 2 ^ 64) (next : UInt64) :
    next.toNat ≤ (nextAfter ids next).toNat ∧ ∀ id ∈ ids, id.toNat < (nextAfter ids next).toNat := by
  induction ids generalizing next with
  | nil => exact ⟨le_rfl, by simp⟩
  | cons id ids ih =>
    obtain ⟨hid, hids⟩ := List.forall_mem_cons.mp hroom
    have hsucc : (id + 1).toNat = id.toNat + 1 := by
      rw [UInt64.toNat_add]
      exact Nat.mod_eq_of_lt hid
    obtain ⟨hle, hlt⟩ := ih hids (if next ≤ id then id + 1 else next)
    have hfold : nextAfter (id :: ids) next = nextAfter ids (if next ≤ id then id + 1 else next) := rfl
    rw [hfold]
    have hstep : next.toNat ≤ (if next ≤ id then id + 1 else next).toNat ∧
        id.toNat < (if next ≤ id then id + 1 else next).toNat := by
      split_ifs with hn
      · have hn := UInt64.le_iff_toNat_le.mp hn
        omega
      · have hn := UInt64.lt_iff_toNat_lt.mp (UInt64.not_le.mp hn)
        omega
    exact ⟨hstep.1.trans hle, List.forall_mem_cons.mpr ⟨lt_of_lt_of_le hstep.2 hle, hlt⟩⟩

/-- a replica has its records under their own identities, like the engine it mirrors -/
structure Sane (j : Impl) : Prop where
  named : Named j.state.topology.resources
  faults : OrderedMap.Keyed (fun f => f.evidence.id) j.state.faults
  numbered : Numbered j
  verified : Verified j
  actions : ActionsKeyed j
  small : ∀ id a, j.state.actions.find id = some a → id.value.toNat + 1 < 2 ^ 64
  contracts : ContractsKeyed j
  genuine : Genuine j.state.workers
  settled : Settled j.state.workers
  epoch : j.state.epoch.valid = true

theorem Mirrors.sane {i j : Impl} (h : Mirrors i j) (hfit : Fit i) : Sane j := by
  have hresources : known j.state.topology.resources = known i.state.topology.resources := h.resources
  have hfaults : j.state.faults = i.state.faults := h.faults
  have hcontainments : j.state.containments = i.state.containments := h.containments
  have hactions : settled j.state.actions = settled i.state.actions := h.actions
  have hcontracts : j.state.degradedContracts = i.state.degradedContracts := congrArg Prod.fst h.degraded
  have hepoch : j.state.epoch = i.state.epoch := congrArg Prod.fst h.stamps
  have hgeneration : j.state.containmentGeneration = i.state.containmentGeneration :=
    congrArg (fun p => p.2.1) h.stamps
  have hverification : j.state.verificationGeneration = i.state.verificationGeneration :=
    congrArg (fun p => p.2.2) h.stamps
  have hroster : roster j.state.workers = roster i.state.workers := h.workers
  refine ⟨hfit.named.of_known hresources, ?_, ?_, ?_, ?_, ?_, ?_, genuine_of_roster hroster hfit.genuine,
    hfit.settled.alike (alike_of_roster hroster).symm, ?_⟩
  · rw [hfaults]
    exact hfit.cataloged.keyed
  · intro g c hc
    rw [hcontainments] at hc
    rw [hgeneration]
    exact hfit.numbered g c hc
  · intro g c hc
    rw [hcontainments] at hc
    rw [hverification]
    exact hfit.verified g c hc
  · intro k a' ha'
    obtain ⟨a, ha, hid⟩ := find_settled hactions ha'
    rw [hid]
    exact hfit.actions k a ha
  · intro k a' ha'
    obtain ⟨a, ha, -⟩ := find_settled hactions ha'
    have hlt := hfit.allocated k a ha
    have hnext := i.nextAction.toNat_lt
    omega
  · unfold ContractsKeyed
    rw [hcontracts]
    exact hfit.contracts
  · rw [hepoch]
    exact hfit.epoch

theorem mirrors_derived {j : Impl} (h : Sane j) (last : ℕ) (nowMs : UInt64) :
    Mirrors j (takeOver last nowMs (deriveCounters j)) where
  resources := rfl
  domains := rfl
  edges := rfl
  workers := roster_same (deriveWorkers_same h.settled)
  policy := rfl
  faults := rfl
  containments := rfl
  actions := rfl
  degraded := rfl
  stamps := by
    refine Prod.ext rfl (Prod.ext ?_ ?_)
    · exact foldl_ahead (fun e : ContainmentGeneration × ContainmentRecord => e.1) fun e he =>
        (h.numbered e.1 e.2 ((OrderedMap.mem_toList _ _ _).mp he)).2
    · exact foldl_ahead (fun e : ContainmentGeneration × ContainmentRecord => e.2.verificationGeneration) fun e he =>
        h.verified e.1 e.2 ((OrderedMap.mem_toList _ _ _).mp he)

/-- the derived counters make a replica fit to go on -/
theorem fit_derived {j : Impl} (h : Sane j) (last : ℕ) (nowMs : UInt64) :
    Fit (takeOver last nowMs (deriveCounters j)) where
  named := h.named
  cataloged := by
    refine ⟨h.faults, fun digest id hid => ?_⟩
    rcases @find_rebuilt j.state.faults.toList ∅ _ _ hid with hnone | ⟨e, he, hid, hdigest⟩
    · simp at hnone
    · exact ⟨e.2, hid ▸ (OrderedMap.mem_toList _ _ _).mp he, hdigest⟩
  numbered := by
    intro g c hc
    obtain ⟨hkey, hle⟩ := h.numbered g c hc
    have hstamps := congrArg (fun p => p.2.1) (mirrors_derived h last nowMs).stamps
    exact ⟨hkey, hle.trans (le_of_eq hstamps.symm)⟩
  verified := by
    intro g c hc
    have hstamps := congrArg (fun p => p.2.2) (mirrors_derived h last nowMs).stamps
    exact (h.verified g c hc).trans (le_of_eq hstamps.symm)
  actions := h.actions
  allocated := by
    intro k a ha
    have hmem : k.value ∈ j.state.actions.toList.map fun e => e.1.value :=
      List.mem_map.mpr ⟨(k, a), (OrderedMap.mem_toList _ _ _).mpr ha, rfl⟩
    refine (lt_nextAfter ?_ j.nextAction).2 k.value hmem
    intro id hid
    obtain ⟨e, he, rfl⟩ := List.mem_map.mp hid
    exact h.small e.1 e.2 ((OrderedMap.mem_toList _ _ _).mp he)
  contracts := h.contracts
  genuine := (deriveWorkers_same h.settled).genuine h.genuine
  settled := h.settled.alike (deriveWorkers_same h.settled).alike.symm
  epoch := h.epoch

end FaultContainment.Replay
