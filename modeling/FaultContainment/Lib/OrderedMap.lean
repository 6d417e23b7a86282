/-
Ordered maps (`std::map`) over a linear order: the standard library's extensional tree map, with the operations of the C++
container it lacks and its lookup lemmas stated with equality of keys.

- `find_insert`, `find_erase`, `find_emplace`, `find_subscript`, `find_update`, `find_mapVals`, `find_keep`: lookup after each
  operation.
- `ext`: two maps with the same lookups are equal.
- `decidableEqMap`, `decidableEntries`: equality of maps and properties of their entries are checked on their lists.
- `find_foldl_at`: a loop whose rounds each rewrite the entry of their own key.
- `ofRecords_vals`: a map of records under their own keys is rebuilt from its records.
-/
import Mathlib.Tactic
import Mathlib.Order.Compare
import Std.Data.ExtTreeMap.Lemmas

namespace FaultContainment.Lib

/-- an ordered map, extensional: determined by its lookups -/
structure OrderedMap (κ ν : Type) [LinearOrder κ] where
  tree : Std.ExtTreeMap κ ν compare := ∅

namespace OrderedMap

variable {κ ν μ : Type} [LinearOrder κ]

instance : EmptyCollection (OrderedMap κ ν) := ⟨{}⟩
instance : Inhabited (OrderedMap κ ν) := ⟨∅⟩

/-! ## Operations of the container -/

/-- `find` -/
def find (m : OrderedMap κ ν) (k : κ) : Option ν := m.tree[k]?

/-- `m[k] = v` -/
def insert (m : OrderedMap κ ν) (k : κ) (v : ν) : OrderedMap κ ν := ⟨m.tree.insert k v⟩

/-- `erase` -/
def erase (m : OrderedMap κ ν) (k : κ) : OrderedMap κ ν := ⟨m.tree.erase k⟩

/-- `size` -/
def size (m : OrderedMap κ ν) : ℕ := m.tree.size

/-- the entries in key order -/
def toList (m : OrderedMap κ ν) : List (κ × ν) := m.tree.toList

/-- `emplace`: keeps an entry already there -/
def emplace (m : OrderedMap κ ν) (k : κ) (v : ν) : OrderedMap κ ν := ⟨m.tree.insertIfNew k v⟩

/-- `m[k]` used as a place: a missing entry is default-constructed before it is written -/
def subscript [Inhabited ν] (m : OrderedMap κ ν) (k : κ) (f : ν → ν) : OrderedMap κ ν :=
  m.insert k (f ((m.find k).getD default))

/-- writes through an iterator: nothing happens when the entry is missing -/
def update (m : OrderedMap κ ν) (k : κ) (f : ν → ν) : OrderedMap κ ν :=
  match m.find k with
  | some v => m.insert k (f v)
  | none => m

/-- a loop over all entries that writes each value -/
def mapVals (m : OrderedMap κ ν) (f : κ → ν → ν) : OrderedMap κ ν := ⟨m.tree.map f⟩

/-- `erase_if` on the values that fail `p` -/
def keep (m : OrderedMap κ ν) (p : ν → Bool) : OrderedMap κ ν := ⟨m.tree.filter fun _ v => p v⟩

/-- a loop over keys that writes each through an iterator -/
def updateAll (m : OrderedMap κ ν) (ks : List κ) (f : ν → ν) : OrderedMap κ ν := ks.foldl (fun m k => m.update k f) m

/-- a loop over keys that writes each as a place -/
def subscriptAll [Inhabited ν] (m : OrderedMap κ ν) (ks : List κ) (f : ν → ν) : OrderedMap κ ν :=
  ks.foldl (fun m k => m.subscript k f) m

/-- the values in key order -/
def vals (m : OrderedMap κ ν) : List ν := m.toList.map Prod.snd

/-- `count(k) > 0` -/
def has (m : OrderedMap κ ν) (k : κ) : Bool := (m.find k).isSome

/-! ## Lookups -/

@[simp] theorem find_empty (k : κ) : (∅ : OrderedMap κ ν).find k = none :=
  Std.ExtTreeMap.getElem?_empty

theorem find_insert (m : OrderedMap κ ν) (k a : κ) (v : ν) :
    (m.insert k v).find a = if k = a then some v else m.find a := by
  rw [find, insert, Std.ExtTreeMap.getElem?_insert]; simp only [compare_eq_iff_eq, find]

@[simp] theorem find_insert_self (m : OrderedMap κ ν) (k : κ) (v : ν) : (m.insert k v).find k = some v := by
  rw [find_insert, if_pos rfl]

theorem find_insert_ne (m : OrderedMap κ ν) {k a : κ} (v : ν) (h : k ≠ a) : (m.insert k v).find a = m.find a := by
  rw [find_insert, if_neg h]

theorem find_erase (m : OrderedMap κ ν) (k a : κ) : (m.erase k).find a = if k = a then none else m.find a := by
  rw [find, erase, Std.ExtTreeMap.getElem?_erase]; simp only [compare_eq_iff_eq, find]

theorem find_emplace (m : OrderedMap κ ν) (k a : κ) (v : ν) :
    (m.emplace k v).find a = if k = a ∧ m.find k = none then some v else m.find a := by
  rw [find, emplace, Std.ExtTreeMap.getElem?_insertIfNew]
  simp only [compare_eq_iff_eq, find, Std.ExtTreeMap.mem_iff_isSome_getElem?, Option.not_isSome_iff_eq_none]
  congr

theorem find_subscript [Inhabited ν] (m : OrderedMap κ ν) (k a : κ) (f : ν → ν) :
    (m.subscript k f).find a = if k = a then some (f ((m.find k).getD default)) else m.find a :=
  find_insert m k a _

theorem find_update (m : OrderedMap κ ν) (k a : κ) (f : ν → ν) :
    (m.update k f).find a = if k = a then (m.find a).map f else m.find a := by
  unfold update
  split
  · next v hv =>
    rw [find_insert]
    split_ifs with h
    · rw [← h, hv, Option.map_some]
    · rfl
  · next hv =>
    split_ifs with h
    · rw [← h, hv, Option.map_none]
    · rfl

theorem find_mapVals (m : OrderedMap κ ν) (f : κ → ν → ν) (k : κ) : (m.mapVals f).find k = (m.find k).map (f k) :=
  Std.ExtTreeMap.getElem?_map

theorem find_keep (m : OrderedMap κ ν) (p : ν → Bool) (k : κ) : (m.keep p).find k = (m.find k).filter p := by
  rw [find, keep, Std.ExtTreeMap.getElem?_filter, find]
  cases m.tree[k]? <;> simp [Option.pfilter, Option.filter]

@[simp] theorem has_iff (m : OrderedMap κ ν) (k : κ) : m.has k = true ↔ ∃ v, m.find k = some v := by
  rw [has, Option.isSome_iff_exists]

@[simp] theorem has_eq_false (m : OrderedMap κ ν) (k : κ) : m.has k = false ↔ m.find k = none := by
  rw [has, Option.isSome_eq_false_iff, Option.isNone_iff_eq_none]

/-- two maps with the same lookups are equal -/
theorem ext {m m' : OrderedMap κ ν} (h : ∀ k, m.find k = m'.find k) : m = m' := by
  obtain ⟨t⟩ := m
  obtain ⟨t'⟩ := m'
  congr
  exact Std.ExtTreeMap.ext_getElem? fun {k} => h k

theorem emplace_new (m : OrderedMap κ ν) {k : κ} (v : ν) (h : m.find k = none) : m.emplace k v = m.insert k v := by
  apply ext; intro a
  rw [find_emplace, find_insert]; simp [h]

theorem emplace_old (m : OrderedMap κ ν) {k : κ} (v : ν) (h : m.find k ≠ none) : m.emplace k v = m := by
  apply ext; intro a
  rw [find_emplace, if_neg (by tauto)]

theorem mem_toList (m : OrderedMap κ ν) (k : κ) (v : ν) : (k, v) ∈ m.toList ↔ m.find k = some v :=
  Std.ExtTreeMap.mem_toList_iff_getElem?_eq_some

theorem mem_vals (m : OrderedMap κ ν) (v : ν) : v ∈ m.vals ↔ ∃ k, m.find k = some v := by
  simp [vals, List.mem_map, mem_toList]

theorem pairwise_keys (m : OrderedMap κ ν) : m.toList.Pairwise fun a b => a.1 < b.1 :=
  (Std.ExtTreeMap.ordered_keys_toList (t := m.tree)).imp fun h => compare_lt_iff_lt.mp h

theorem length_toList (m : OrderedMap κ ν) : m.toList.length = m.size := Std.ExtTreeMap.length_toList

/-! ## Checks -/

/-- maps are compared entry by entry -/
instance decidableEqMap [DecidableEq ν] : DecidableEq (OrderedMap κ ν) := fun m m' =>
  decidable_of_iff (m.toList = m'.toList)
    ⟨fun h => ext fun k => Option.ext fun v => by
        rw [← mem_toList, ← mem_toList, h],
      fun h => congrArg toList h⟩

/-- a property of every entry of a map is checked on its list -/
instance decidableEntries (m : OrderedMap κ ν) (P : κ → ν → Prop) [∀ k v, Decidable (P k v)] :
    Decidable (∀ k v, m.find k = some v → P k v) :=
  decidable_of_iff (∀ e ∈ m.toList, P e.1 e.2)
    ⟨fun h k v hk => h (k, v) ((mem_toList m k v).mpr hk), fun h e he => h e.1 e.2 ((mem_toList m e.1 e.2).mp he)⟩

/-! ## Loops over keys -/

theorem find_updateAll (m : OrderedMap κ ν) (ks : List κ) (f : ν → ν) (hf : ∀ v, f (f v) = f v) (a : κ) :
    (m.updateAll ks f).find a = if a ∈ ks then (m.find a).map f else m.find a := by
  induction ks generalizing m with
  | nil => simp [updateAll]
  | cons k ks ih =>
    have h : (m.updateAll (k :: ks) f) = (m.update k f).updateAll ks f := rfl
    rw [h, ih, find_update]
    by_cases hk : k = a
    · subst hk; cases m.find k <;> simp [hf]
    · simp [hk, Ne.symm hk]

theorem subscript_eq_update [Inhabited ν] (m : OrderedMap κ ν) {k : κ} (f : ν → ν) (h : m.has k = true) :
    m.subscript k f = m.update k f := by
  obtain ⟨v, hv⟩ := (has_iff m k).mp h
  simp [subscript, update, hv]

theorem has_update (m : OrderedMap κ ν) (k a : κ) (f : ν → ν) : (m.update k f).has a = m.has a := by
  rw [has, find_update, has]
  split_ifs
  · rw [Option.isSome_map]
  · rfl

theorem has_updateAll (m : OrderedMap κ ν) (ks : List κ) (a : κ) (f : ν → ν) : (m.updateAll ks f).has a = m.has a := by
  induction ks generalizing m with
  | nil => rfl
  | cons k ks ih => rw [show m.updateAll (k :: ks) f = (m.update k f).updateAll ks f from rfl, ih, has_update]

/-- a subscript loses no key -/
theorem has_subscriptAll [Inhabited ν] (m : OrderedMap κ ν) (ks : List κ) (f : ν → ν) {a : κ} (h : m.has a = true) :
    (m.subscriptAll ks f).has a = true := by
  induction ks generalizing m with
  | nil => exact h
  | cons k ks ih =>
    refine ih _ ?_
    obtain ⟨v, hv⟩ := (has_iff m a).mp h
    rw [has_iff, find_subscript]
    split_ifs
    · exact ⟨_, rfl⟩
    · exact ⟨v, hv⟩

/-- over keys that are there the two loops agree -/
theorem subscriptAll_eq_updateAll [Inhabited ν] (m : OrderedMap κ ν) (ks : List κ) (f : ν → ν)
    (h : ∀ k ∈ ks, m.has k = true) : m.subscriptAll ks f = m.updateAll ks f := by
  induction ks generalizing m with
  | nil => rfl
  | cons k ks ih =>
    have hk : m.subscript k f = m.update k f := subscript_eq_update m f (h k (by simp))
    have h' : ∀ a ∈ ks, (m.update k f).has a = true := fun a ha => by rw [has_update]; exact h a (by simp [ha])
    calc m.subscriptAll (k :: ks) f = (m.update k f).subscriptAll ks f := by rw [← hk]; rfl
      _ = (m.update k f).updateAll ks f := ih _ h'
      _ = m.updateAll (k :: ks) f := rfl

/-- every listed key is there after a pass of lookups, with the edit applied to its value or to a fresh one -/
theorem find_subscriptAll [Inhabited ν] (m : OrderedMap κ ν) (ks : List κ) (f : ν → ν) (hf : ∀ v, f (f v) = f v) (a : κ) :
    (m.subscriptAll ks f).find a = if a ∈ ks then some (f ((m.find a).getD default)) else m.find a := by
  induction ks generalizing m with
  | nil => simp [subscriptAll]
  | cons k ks ih =>
    show ((m.subscript k f).subscriptAll ks f).find a = _
    rw [ih, find_subscript]
    by_cases hk : k = a
    · subst hk
      simp [hf]
    · simp [hk, Ne.symm hk]


theorem insert_insert (m : OrderedMap κ ν) (k : κ) (v w : ν) : (m.insert k v).insert k w = m.insert k w := by
  apply ext; intro a; simp only [find_insert]; split_ifs <;> rfl

theorem insert_find (m : OrderedMap κ ν) {k : κ} {v : ν} (h : m.find k = some v) : m.insert k v = m := by
  apply ext; intro a; rw [find_insert]; split_ifs with hk
  · rw [← hk, h]
  · rfl

/-- a loop whose rounds each rewrite the entry of their own key, when no key comes twice -/
theorem find_foldl_at {α : Type} (key : α → κ) {f : OrderedMap κ ν → α → OrderedMap κ ν} {h : α → Option ν → Option ν}
    (hf : ∀ m a k, (f m a).find k = if key a = k then h a (m.find k) else m.find k) (as : List α)
    (hd : (as.map key).Nodup) (m : OrderedMap κ ν) :
    (∀ a ∈ as, (as.foldl f m).find (key a) = h a (m.find (key a))) ∧
      ∀ k, k ∉ as.map key → (as.foldl f m).find k = m.find k := by
  induction as generalizing m with
  | nil => simp
  | cons a as ih =>
    rw [List.map_cons, List.nodup_cons] at hd
    obtain ⟨h1, h2⟩ := ih hd.2 (f m a)
    constructor
    · intro b hb
      rcases List.mem_cons.mp hb with rfl | hb
      · rw [List.foldl_cons, h2 _ hd.1, hf, if_pos rfl]
      · have hne : key a ≠ key b := fun he => hd.1 (he ▸ List.mem_map_of_mem hb)
        rw [List.foldl_cons, h1 b hb, hf, if_neg hne]
    · intro k hk
      rw [List.map_cons, List.mem_cons, not_or] at hk
      rw [List.foldl_cons, h2 k hk.2, hf, if_neg (Ne.symm hk.1)]

/-! ## Maps of records under their own keys -/

/-- the map a reader fills from records that name their own key -/
def ofRecords (key : ν → κ) (vs : List ν) : OrderedMap κ ν := vs.foldl (fun m v => m.insert (key v) v) ∅

/-- every entry sits under the key its record names -/
def Keyed (key : ν → κ) (m : OrderedMap κ ν) : Prop := ∀ k v, m.find k = some v → key v = k

instance (key : ν → κ) (m : OrderedMap κ ν) : Decidable (Keyed key m) := decidableEntries m fun k v => key v = k

theorem Keyed.insert {key : ν → κ} {m : OrderedMap κ ν} (h : Keyed key m) {k : κ} {v : ν} (hv : key v = k) :
    Keyed key (m.insert k v) := by
  intro a w ha
  rw [find_insert] at ha
  split_ifs at ha with hak
  · rw [← Option.some.inj ha, hv, hak]
  · exact h a w ha

theorem Keyed.emplace {key : ν → κ} {m : OrderedMap κ ν} (h : Keyed key m) {k : κ} {v : ν} (hv : key v = k) :
    Keyed key (m.emplace k v) := by
  by_cases hk : m.find k = none
  · rw [emplace_new m v hk]; exact h.insert hv
  · rwa [emplace_old m v hk]

theorem Keyed.erase {key : ν → κ} {m : OrderedMap κ ν} (h : Keyed key m) (k : κ) : Keyed key (m.erase k) := by
  intro a w ha
  rw [find_erase] at ha
  split_ifs at ha
  exact h a w ha

theorem Keyed.mapVals {key : ν → κ} {m : OrderedMap κ ν} (h : Keyed key m) {f : κ → ν → ν}
    (hf : ∀ k v, key (f k v) = key v) : Keyed key (m.mapVals f) := by
  intro a w ha
  rw [find_mapVals] at ha
  obtain ⟨v, hv, rfl⟩ := Option.map_eq_some_iff.mp ha
  rw [hf, h a v hv]

theorem Keyed.update {key : ν → κ} {m : OrderedMap κ ν} (h : Keyed key m) (k : κ) {f : ν → ν}
    (hf : ∀ v, key (f v) = key v) : Keyed key (m.update k f) := by
  intro a w ha
  rw [find_update] at ha
  split_ifs at ha with hak
  · obtain ⟨v, hv, rfl⟩ := Option.map_eq_some_iff.mp ha
    rw [hf, h a v hv]
  · exact h a w ha

theorem find_foldl_insert (key : ν → κ) (vs : List ν) (m : OrderedMap κ ν) (hd : (vs.map key).Nodup) (k : κ) :
    (vs.foldl (fun m v => m.insert (key v) v) m).find k = (vs.find? fun v => key v = k).or (m.find k) := by
  induction vs generalizing m with
  | nil => simp
  | cons v vs ih =>
    rw [List.map_cons, List.nodup_cons] at hd
    rw [List.foldl_cons, ih _ hd.2, find_insert, List.find?_cons]
    by_cases h : key v = k
    · have hnone : (vs.find? fun w => key w = k) = none := by
        rw [List.find?_eq_none]
        intro w hw
        have hne : key w ≠ k := by
          rintro rfl
          exact hd.1 (h ▸ List.mem_map_of_mem hw)
        simpa using hne
      simp [h, hnone]
    · simp [h]

theorem find_ofRecords (key : ν → κ) (vs : List ν) (hd : (vs.map key).Nodup) (k : κ) :
    (ofRecords key vs).find k = vs.find? fun v => key v = k := by
  rw [ofRecords, find_foldl_insert key vs ∅ hd]; simp

theorem nodup_keys_vals (key : ν → κ) (m : OrderedMap κ ν) (hm : Keyed key m) : (m.vals.map key).Nodup := by
  have hmap : (vals m).map key = m.toList.map Prod.fst := by
    rw [vals, List.map_map]
    apply List.map_congr_left
    rintro ⟨k, v⟩ hp
    exact hm k v ((mem_toList m k v).mp hp)
  rw [hmap, List.Nodup, List.pairwise_map]
  exact (pairwise_keys m).imp fun h => h.ne

/-- **A map of records is rebuilt from its records.** -/
theorem ofRecords_vals (key : ν → κ) (m : OrderedMap κ ν) (hm : Keyed key m) : ofRecords key (vals m) = m := by
  apply ext
  intro k
  rw [find_ofRecords key _ (nodup_keys_vals key m hm)]
  cases h : m.find k with
  | none =>
    rw [List.find?_eq_none]
    intro v hv
    obtain ⟨k', hk'⟩ := (mem_vals m v).mp hv
    have hne : key v ≠ k := by
      rintro rfl
      rw [hm k' v hk', hk'] at h; simp at h
    simpa using hne
  | some v =>
    have hv : v ∈ vals m := (mem_vals m v).mpr ⟨k, h⟩
    have hkv : key v = k := hm k v h
    cases hf : (vals m).find? fun w => key w = k with
    | none =>
      rw [List.find?_eq_none] at hf
      exact absurd hkv (by simpa using hf v hv)
    | some w =>
      have hw : key w = k := by simpa using List.find?_some hf
      obtain ⟨k', hk'⟩ := (mem_vals m w).mp (List.mem_of_find?_eq_some hf)
      have hkk : k' = k := (hm k' w hk').symm.trans hw
      rw [← h, ← hkk, hk']

/-! ## Collecting elements -/

/-- a property of every value of a map -/
def Each (P : ν → Prop) (m : OrderedMap κ ν) : Prop := ∀ k v, m.find k = some v → P v

instance (P : ν → Prop) [DecidablePred P] (m : OrderedMap κ ν) : Decidable (Each P m) := decidableEntries m fun _ v => P v

theorem each_iff_vals (P : ν → Prop) (m : OrderedMap κ ν) : (∀ v ∈ m.vals, P v) ↔ Each P m := by
  constructor
  · intro h k v hv; exact h v ((mem_vals m v).mpr ⟨k, hv⟩)
  · intro h v hv
    obtain ⟨k, hk⟩ := (mem_vals m v).mp hv
    exact h k v hk

theorem length_vals (m : OrderedMap κ ν) : m.vals.length = m.size := by
  rw [vals, List.length_map, length_toList]

variable {ε : Type}

/-- the map a reader builds by `emplace`: of two elements with one key the first stays -/
def collect (key : ε → κ) (val : ε → ν) (es : List ε) : OrderedMap κ ν :=
  es.foldl (fun m e => m.emplace (key e) (val e)) ∅

theorem find_foldl_emplace (key : ε → κ) (val : ε → ν) (es : List ε) (m : OrderedMap κ ν) (k : κ) :
    (es.foldl (fun m e => m.emplace (key e) (val e)) m).find k =
      (m.find k).or ((es.find? fun e => key e = k).map val) := by
  induction es generalizing m with
  | nil => simp
  | cons e es ih =>
    rw [List.foldl_cons, ih, find_emplace, List.find?_cons]
    by_cases h : key e = k
    · cases hm : m.find k <;> simp [h, hm]
    · simp [h]

theorem find_collect (key : ε → κ) (val : ε → ν) (es : List ε) (k : κ) :
    (collect key val es).find k = (es.find? fun e => key e = k).map val := by
  rw [collect, find_foldl_emplace]; simp

theorem mem_of_find_collect {key : ε → κ} {val : ε → ν} {es : List ε} {k : κ} {v : ν}
    (h : (collect key val es).find k = some v) : ∃ e ∈ es, key e = k ∧ val e = v := by
  rw [find_collect, Option.map_eq_some_iff] at h
  obtain ⟨e, he, hv⟩ := h
  exact ⟨e, List.mem_of_find?_eq_some he, by simpa using List.find?_some he, hv⟩

theorem size_collect_le (key : ε → κ) (val : ε → ν) (es : List ε) : (collect key val es).size ≤ es.length := by
  have hsub : ((collect key val es).toList.map Prod.fst).length ≤ (es.map key).length := by
    refine (List.subperm_of_subset ?_ fun k hk => ?_).length_le
    · rw [List.Nodup, List.pairwise_map]
      exact (pairwise_keys _).imp fun h => h.ne
    · obtain ⟨⟨k, v⟩, hkv, rfl⟩ := List.mem_map.mp hk
      obtain ⟨e, he, hke, -⟩ := mem_of_find_collect ((mem_toList _ k v).mp hkv)
      exact List.mem_map.mpr ⟨e, he, hke⟩
  rw [List.length_map, List.length_map, length_toList] at hsub
  exact hsub

theorem collect_toList (m : OrderedMap κ ν) : collect Prod.fst Prod.snd m.toList = m := by
  apply OrderedMap.ext
  intro k
  rw [find_collect]
  cases h : m.find k with
  | none =>
    rw [Option.map_eq_none_iff, List.find?_eq_none]
    rintro ⟨k', v⟩ hv hk
    obtain rfl : k' = k := by simpa using hk
    rw [(mem_toList m k' v).mp hv] at h; simp at h
  | some v =>
    cases hf : m.toList.find? fun e => e.1 = k with
    | none =>
      rw [List.find?_eq_none] at hf
      simpa using hf (k, v) ((mem_toList m k v).mpr h)
    | some e =>
      have hk : e.1 = k := by simpa using List.find?_some hf
      have hv := (mem_toList m e.1 e.2).mp (List.mem_of_find?_eq_some hf)
      rw [hk, h] at hv
      rw [Option.map_some, hv]

/-- a map of records is rebuilt from the records -/
theorem collect_vals (key : ν → κ) (m : OrderedMap κ ν) (hm : Keyed key m) : collect key id m.vals = m := by
  conv_rhs => rw [← ofRecords_vals key m hm]
  apply OrderedMap.ext
  intro k
  rw [find_collect, find_ofRecords key _ (nodup_keys_vals key m hm), Option.map_id]
  rfl

end OrderedMap

end FaultContainment.Lib
