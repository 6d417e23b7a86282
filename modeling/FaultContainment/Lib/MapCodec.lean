/-
Codecs of ordered maps.

A map of records is written as its values in key order and rebuilt from the keys the records name; a map of plain pairs is
written as its entries. The reader either keeps the first of two elements with one key or refuses them; on what the writer
produced the two agree.
-/
import FaultContainment.Lib.Codec
import FaultContainment.Lib.OrderedMap

namespace FaultContainment.Lib.Codec

variable {κ ν ε : Type} [LinearOrder κ]

open OrderedMap

/-! ## Codecs -/

/-- the elements a map is written as -/
structure Layout (κ ν ε : Type) [LinearOrder κ] where
  key : ε → κ
  val : ε → ν
  elems : OrderedMap κ ν → List ε
  inv : OrderedMap κ ν → Prop
  collect_elems : ∀ m, inv m → collect key val (elems m) = m
  nodup_elems : ∀ m, inv m → ((elems m).map key).Nodup
  length_elems : ∀ m, (elems m).length = m.size
  inv_collect : ∀ es, inv (collect key val es)
  mem_elems_collect : ∀ es e, e ∈ elems (collect key val es) → e ∈ es

/-- a map of records under their own keys -/
def records (key : ν → κ) : Layout κ ν ν where
  key := key
  val := id
  elems := vals
  inv := Keyed key
  collect_elems := collect_vals key
  nodup_elems := nodup_keys_vals key
  length_elems := length_vals
  inv_collect es k v h := by
    obtain ⟨e, -, hk, rfl⟩ := mem_of_find_collect h
    exact hk
  mem_elems_collect es e h := by
    obtain ⟨k, hk⟩ := (mem_vals _ e).mp h
    obtain ⟨e', he, -, rfl⟩ := mem_of_find_collect hk
    exact he

/-- the entries of a map -/
def pairs : Layout κ ν (κ × ν) where
  key := Prod.fst
  val := Prod.snd
  elems := toList
  inv _ := True
  collect_elems m _ := collect_toList m
  nodup_elems m _ := by
    rw [List.Nodup, List.pairwise_map]
    exact (pairwise_keys m).imp fun h => h.ne
  length_elems := length_toList
  inv_collect _ := trivial
  mem_elems_collect es e h := by
    obtain ⟨e', he, hk, hv⟩ := mem_of_find_collect ((mem_toList _ e.1 e.2).mp h)
    obtain rfl : e' = e := Prod.ext hk hv
    exact he

/-- a map behind its 32-bit count. The reader keeps the first of two elements with one key, or refuses them when it is
`strict` -/
def mapOf (l : Layout κ ν ε) (c : Codec ε) (strict : Bool) (ceiling : ℕ) (hc : ceiling < 256 ^ 4) :
    Codec (OrderedMap κ ν) where
  enc m := (c.list ceiling hc).enc (l.elems m)
  dec bs := (((c.list ceiling hc).check fun es => !strict || (es.map l.key).Nodup).dec bs).map fun p =>
    (collect l.key l.val p.1, p.2)
  clean m := ∀ e ∈ l.elems m, c.clean e
  fits m := ∀ e ∈ l.elems m, c.fits e
  sound m := l.inv m ∧ ∀ e ∈ l.elems m, c.sound e
  counted m := m.size ≤ ceiling ∧ ∀ e ∈ l.elems m, c.counted e
  enc_iff m := (c.list ceiling hc).enc_iff (l.elems m)
  dec_enc m bs hs hn he rest := by
    have hs' : ((c.list ceiling hc).check fun es => !strict || (es.map l.key).Nodup).sound (l.elems m) :=
      ⟨hs.2, by simp [l.nodup_elems m hs.1]⟩
    have hn' : (c.list ceiling hc).counted (l.elems m) := ⟨l.length_elems m ▸ hn.1, hn.2⟩
    have := ((c.list ceiling hc).check fun es => !strict || (es.map l.key).Nodup).dec_enc _ _ hs' hn' he rest
    simp [this, l.collect_elems m hs.1]
  of_dec bs m rest h := by
    obtain ⟨es, hes, rfl⟩ :
        ∃ es, ((c.list ceiling hc).check fun es => !strict || (es.map l.key).Nodup).dec bs = some (es, rest) ∧
          collect l.key l.val es = m := by simpa using h
    obtain ⟨⟨h1, h2⟩, ⟨h3, -⟩, h4, h5⟩ := Codec.of_dec _ _ _ _ hes
    have hm := l.mem_elems_collect es
    exact ⟨⟨fun e he => h1 e (hm e he), fun e he => h2 e (hm e he)⟩,
      ⟨l.inv_collect es, fun e he => h3 e (hm e he)⟩, (size_collect_le _ _ es).trans h4, fun e he => h5 e (hm e he)⟩

/-- both sides pass a map when they pass its elements and the reader its size -/
theorem mapOf_wf (l : Layout κ ν ε) (c : Codec ε) (strict : Bool) (ceiling : ℕ) (hc : ceiling < 256 ^ 4)
    (m : OrderedMap κ ν) :
    (mapOf l c strict ceiling hc).wf m ↔ l.inv m ∧ m.size ≤ ceiling ∧ ∀ e ∈ l.elems m, c.wf e := by
  constructor
  · rintro ⟨⟨h1, h2⟩, ⟨h3, h4⟩, h5, h6⟩
    exact ⟨h3, h5, fun e he => ⟨⟨h1 e he, h2 e he⟩, h4 e he, h6 e he⟩⟩
  · rintro ⟨h3, h5, h⟩
    exact ⟨⟨fun e he => (h e he).1.1, fun e he => (h e he).1.2⟩, ⟨h3, fun e he => (h e he).2.1⟩, h5,
      fun e he => (h e he).2.2⟩

end FaultContainment.Lib.Codec
