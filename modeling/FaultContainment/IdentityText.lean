/-
Identities as text (`to_string` and `parse_id` of `ids.hpp`).

Both loops count in 64 bits. The check in front of the multiplication keeps it from wrapping, so the loop that parses
computes the value of the digits or refuses; the loop that renders fills its buffer from the end, and 24 characters are
enough.

- `parseLoop_iff`: what the loop over the digits accepts, and what it returns.
- `renderLoop_eq`: what the loop over the value writes.
- `parse_exact`: what is parsed, and that what is rendered is parsed.
-/
import Mathlib.Data.List.TakeWhile
import FaultContainment.Coordinator

namespace FaultContainment.IdentityText

open FaultContainment.Lib FaultContainment.Ids FaultContainment.Coordinator

/-! ## The loops -/

/-- the loop of `parse_id`, in the arithmetic of the source -/
def parseLoop : Text → UInt64 → Option UInt64
  | [], value => some value
  | c :: cs, value =>
    if c < 48 ∨ 57 < c then none
    else
      let digit := (c - 48).toUInt64
      if (0xFFFFFFFFFFFFFFFF - digit) / 10 < value then none else parseLoop cs (value * 10 + digit)

/-- the loop of `to_string`: the digits from the last one on, in a buffer with this much room -/
def renderLoop : ℕ → UInt64 → Text → Option Text
  | position, value, out =>
    if value = 0 then some out
    else
      match position with
      | 0 => none
      | position + 1 => renderLoop position (value / 10) ((48 + (value % 10).toUInt8) :: out)

/-! ## Numerals -/

/-- a decimal digit -/
def Digit (c : UInt8) : Prop := 48 ≤ c.toNat ∧ c.toNat ≤ 57

/-- the number that digits continue -/
def valueFrom (n : ℕ) (ds : Text) : ℕ := ds.foldl (fun v c => 10 * v + (c.toNat - 48)) n

/-- the number that a text of an identity denotes: the domain and a colon may stand in front of its digits -/
def Denotes (t : IdTag) (s : Text) (n : ℕ) : Prop :=
  ∃ ds, ds ≠ [] ∧ (∀ c ∈ ds, Digit c) ∧ (s = ds ∨ s = t.name ++ lit ":" ++ ds) ∧ valueFrom 0 ds = n

theorem le_valueFrom (n : ℕ) (ds : Text) : n ≤ valueFrom n ds := by
  induction ds generalizing n with
  | nil => exact le_rfl
  | cons c ds ih =>
    calc n ≤ 10 * n + (c.toNat - 48) := by omega
      _ ≤ valueFrom n (c :: ds) := ih _

/-! ## Parsing -/

section Step

variable {c : UInt8} {value : UInt64}

theorem digit_of_not (h : ¬ (c < 48 ∨ 57 < c)) : Digit c := by
  rw [not_or] at h
  exact ⟨Nat.le_of_not_lt h.1, Nat.le_of_not_lt h.2⟩

theorem toNat_digit (hlow : 48 ≤ c.toNat) : (c - 48).toUInt64.toNat = c.toNat - 48 := by
  rw [UInt8.toNat_toUInt64, UInt8.toNat_sub_of_le _ _ hlow]
  rfl

/-- the bound in front of the multiplication -/
theorem toNat_bound (hlow : 48 ≤ c.toNat) :
    ((0xFFFFFFFFFFFFFFFF - (c - 48).toUInt64) / 10).toNat = (2 ^ 64 - 1 - (c.toNat - 48)) / 10 := by
  have hle : (c - 48).toUInt64 ≤ 0xFFFFFFFFFFFFFFFF := by
    rw [UInt64.le_iff_toNat_le]
    exact Nat.le_of_lt_succ (UInt64.toNat_lt _)
  rw [UInt64.toNat_div, UInt64.toNat_sub_of_le _ _ hle, toNat_digit hlow]
  rfl

/-- behind the bound nothing wraps -/
theorem toNat_next (hlow : 48 ≤ c.toNat) (hbound : ¬ (2 ^ 64 - 1 - (c.toNat - 48)) / 10 < value.toNat) :
    (value * 10 + (c - 48).toUInt64).toNat = 10 * value.toNat + (c.toNat - 48) := by
  have hten : (10 : UInt64).toNat = 10 := rfl
  have hsmall := c.toNat_lt
  rw [UInt64.toNat_add, UInt64.toNat_mul, toNat_digit hlow, hten]
  omega

end Step

/-- **The loop over the digits.** It accepts digits whose number is below 2^64, and returns that number. -/
theorem parseLoop_iff (ds : Text) (value v : UInt64) :
    parseLoop ds value = some v ↔ (∀ c ∈ ds, Digit c) ∧ valueFrom value.toNat ds = v.toNat := by
  induction ds generalizing value with
  | nil =>
    rw [parseLoop, Option.some.injEq, ← UInt64.toNat_inj]
    exact (and_iff_right fun c hc => by cases hc).symm
  | cons c ds ih =>
    unfold parseLoop
    by_cases hdigit : c < 48 ∨ 57 < c
    · rw [if_pos hdigit]
      refine iff_of_false (fun h => by cases h) fun h => ?_
      obtain ⟨hlow, hhigh⟩ := h.1 c List.mem_cons_self
      exact hdigit.elim (fun hlt => absurd hlow (Nat.not_le.mpr hlt)) fun hlt => absurd hhigh (Nat.not_le.mpr hlt)
    obtain ⟨hlow, hhigh⟩ := digit_of_not hdigit
    rw [if_neg hdigit]
    dsimp only
    by_cases hover : (0xFFFFFFFFFFFFFFFF - (c - 48).toUInt64) / 10 < value
    · -- the number is already too large, and more digits only make it larger
      have hover' : (2 ^ 64 - 1 - (c.toNat - 48)) / 10 < value.toNat := toNat_bound hlow ▸ hover
      rw [if_pos hover]
      refine iff_of_false (fun h => by cases h) fun h => ?_
      have hle := le_valueFrom (10 * value.toNat + (c.toNat - 48)) ds
      have hvalue : valueFrom (10 * value.toNat + (c.toNat - 48)) ds = v.toNat := h.2
      have hlt := v.toNat_lt
      omega
    · have hover' : ¬ (2 ^ 64 - 1 - (c.toNat - 48)) / 10 < value.toNat := toNat_bound hlow ▸ hover
      rw [if_neg hover, ih, toNat_next hlow hover']
      constructor
      · intro h
        exact ⟨List.forall_mem_cons.mpr ⟨⟨hlow, hhigh⟩, h.1⟩, h.2⟩
      · intro h
        exact ⟨(List.forall_mem_cons.mp h.1).2, h.2⟩

/-- counted in natural numbers the loop is the same -/
theorem parseDigits_eq (ds : Text) (value : UInt64) :
    (parseDigits ds value.toNat).map UInt64.ofNat = parseLoop ds value := by
  induction ds generalizing value with
  | nil => exact congrArg some (UInt64.ofNat_toNat)
  | cons c ds ih =>
    unfold parseDigits parseLoop
    by_cases hdigit : c < 48 ∨ 57 < c
    · rw [if_pos hdigit, if_pos hdigit]
      rfl
    obtain ⟨hlow, hhigh⟩ := digit_of_not hdigit
    rw [if_neg hdigit, if_neg hdigit]
    dsimp only
    by_cases hover : (0xFFFFFFFFFFFFFFFF - (c - 48).toUInt64) / 10 < value
    · have hover' : (2 ^ 64 - 1 - (c.toNat - 48)) / 10 < value.toNat := toNat_bound hlow ▸ hover
      rw [if_pos hover, if_pos hover']
      rfl
    · have hover' : ¬ (2 ^ 64 - 1 - (c.toNat - 48)) / 10 < value.toNat := toNat_bound hlow ▸ hover
      rw [if_neg hover, if_neg hover', ← ih, toNat_next hlow hover', Nat.mul_comm]

/-! ## Rendering -/

theorem renderLoop_zero (position : ℕ) (out : Text) : renderLoop position 0 out = some out := by
  unfold renderLoop
  exact if_pos rfl

/-- **The loop over the value** writes the decimal rendering when there is room for its digits. -/
theorem renderLoop_eq {position : ℕ} {value : UInt64} (hvalue : value ≠ 0) (hroom : value.toNat < 10 ^ position)
    (out : Text) : renderLoop position value out = some (decimal value.toNat ++ out) := by
  have hten : (10 : UInt64).toNat = 10 := rfl
  induction position generalizing value out with
  | zero =>
    refine absurd (UInt64.toNat_inj.mp ?_) hvalue
    exact Nat.lt_one_iff.mp hroom
  | succ position ih =>
    have hdiv : (value / 10).toNat = value.toNat / 10 := by rw [UInt64.toNat_div, hten]
    have hdigit : 48 + (value % 10).toUInt8 = UInt8.ofNat (48 + value.toNat % 10) := by
      apply UInt8.toNat_inj.mp
      rw [UInt8.toNat_add, UInt64.toNat_toUInt8, UInt64.toNat_mod, hten, UInt8.toNat_ofNat']
      have h48 : (48 : UInt8).toNat = 48 := rfl
      rw [h48]
      omega
    rw [renderLoop, if_neg hvalue, hdigit]
    by_cases hlast : value / 10 = 0
    · have hsmall : value.toNat < 10 := by
        have hzero := congrArg UInt64.toNat hlast
        rw [hdiv] at hzero
        have h0 : (0 : UInt64).toNat = 0 := rfl
        omega
      rw [hlast, renderLoop_zero, decimal_eq, if_pos hsmall, Nat.mod_eq_of_lt hsmall]
      rfl
    · have hlarge : ¬ value.toNat < 10 := by
        intro hsmall
        apply hlast
        apply UInt64.toNat_inj.mp
        rw [hdiv, Nat.div_eq_of_lt hsmall]
        rfl
      rw [pow_succ] at hroom
      rw [ih hlast (by omega), hdiv, decimal_eq value.toNat, if_neg hlarge, List.append_assoc]
      rfl

theorem digit_decimal (n : ℕ) : ∀ c ∈ decimal n, Digit c := by
  induction n using Nat.strong_induction_on with
  | _ n ih =>
    have hdigit : ∀ d < 10, Digit (UInt8.ofNat (48 + d)) := by
      intro d hd
      rw [Digit, UInt8.toNat_ofNat']
      omega
    rw [decimal_eq]
    split_ifs with h
    · intro c hc
      rw [List.mem_singleton.mp hc]
      exact hdigit n h
    · intro c hc
      rcases List.mem_append.mp hc with hc | hc
      · exact ih (n / 10) (by omega) c hc
      · rw [List.mem_singleton.mp hc]
        exact hdigit _ (Nat.mod_lt _ (by decide))

theorem valueFrom_decimal (n : ℕ) : valueFrom 0 (decimal n) = n := by
  induction n using Nat.strong_induction_on with
  | _ n ih =>
    have hbyte : ∀ d < 10, (UInt8.ofNat (48 + d)).toNat - 48 = d := by
      intro d hd
      rw [UInt8.toNat_ofNat']
      omega
    rw [decimal_eq]
    split_ifs with h
    · rw [valueFrom, List.foldl_cons, List.foldl_nil, hbyte n h]
      omega
    · have hfront : List.foldl (fun v (c : UInt8) => 10 * v + (c.toNat - 48)) 0 (decimal (n / 10)) = n / 10 :=
        ih (n / 10) (by omega)
      rw [valueFrom, List.foldl_append, hfront, List.foldl_cons, List.foldl_nil, hbyte _ (Nat.mod_lt _ (by decide))]
      omega

theorem decimal_ne_nil (n : ℕ) : decimal n ≠ [] := by
  rw [decimal_eq]
  split_ifs
  · exact List.cons_ne_nil _ _
  · exact List.append_ne_nil_of_right_ne_nil _ (List.cons_ne_nil _ _)

/-! ## Identities -/

/-- `parse_id`, in the arithmetic of the source -/
def parse (t : IdTag) (text : Text) : Option (Id t) :=
  if text = [] then none
  else
    match text.span (· ≠ 58) with
    | (_, []) => (parseLoop text 0).map Id.mk
    | (domain, _ :: digits) => if domain ≠ t.name ∨ digits = [] then none else (parseLoop digits 0).map Id.mk

/-- `to_string`, in the arithmetic of the source -/
def render {t : IdTag} (id : Id t) : Option Text :=
  if ¬ id.valid then some (t.name ++ lit ":" ++ lit "invalid")
  else (renderLoop 24 id.value []).map fun digits => t.name ++ lit ":" ++ digits

/-- the rest of the model parses the same -/
theorem parseId_eq (t : IdTag) (text : Text) : parseId t text = parse t text := by
  have hloop : ∀ ds : Text,
      (parseDigits ds 0).map (fun n => (⟨UInt64.ofNat n⟩ : Id t)) = (parseLoop ds 0).map Id.mk := by
    intro ds
    rw [← parseDigits_eq, Option.map_map]
    rfl
  unfold parseId parse
  by_cases hempty : text = []
  · rw [if_pos hempty, if_pos hempty]
  rw [if_neg hempty, if_neg hempty]
  obtain ⟨domain, rest, hspan⟩ : ∃ domain rest, text.span (· ≠ 58) = (domain, rest) := ⟨_, _, rfl⟩
  cases rest with
  | nil => simp only [hspan, hloop]
  | cons colon digits => simp only [hspan, hloop]

/-- the rest of the model renders the same -/
theorem render_eq {t : IdTag} (id : Id t) : render id = some id.text := by
  unfold render Id.text
  by_cases hvalid : id.valid = true
  · have hvalue : id.value ≠ 0 := by
      rintro h
      rw [Id.valid, h] at hvalid
      exact absurd hvalid (by decide)
    have hroom : id.value.toNat < 10 ^ 24 := lt_trans id.value.toNat_lt (by decide)
    rw [if_neg (not_not.mpr hvalid), if_pos hvalid, renderLoop_eq hvalue hroom, List.append_nil]
    rfl
  · rw [if_pos hvalid, if_neg hvalid]

section Colon

variable {t : IdTag} {s domain digits : Text}

theorem name_colon (t : IdTag) : ∀ c ∈ t.name, c ≠ 58 := by
  have hall : t.name.all (fun c => decide (c ≠ 58)) = true := by
    cases t <;> rfl
  intro c hc
  exact of_decide_eq_true (List.all_eq_true.mp hall c hc)

theorem digit_colon {c : UInt8} (h : Digit c) : c ≠ 58 := by
  intro hc
  rw [hc] at h
  exact absurd h.2 (by decide)

theorem span_of_not_mem (h : ∀ c ∈ s, c ≠ 58) : s.span (· ≠ 58) = (s, []) := by
  have hall : ∀ c ∈ s, decide (c ≠ 58) = true := fun c hc => decide_eq_true (h c hc)
  rw [List.span_eq_takeWhile_dropWhile, List.takeWhile_eq_self_iff.mpr hall, List.dropWhile_eq_nil_iff.mpr hall]

theorem span_of_append (h : ∀ c ∈ domain, c ≠ 58) :
    (domain ++ 58 :: digits).span (· ≠ 58) = (domain, 58 :: digits) := by
  have hall : ∀ c ∈ domain, decide (c ≠ 58) = true := fun c hc => decide_eq_true (h c hc)
  rw [List.span_eq_takeWhile_dropWhile, List.takeWhile_append_of_pos hall, List.dropWhile_append_of_pos hall]
  rw [List.takeWhile_cons_of_neg (by decide), List.dropWhile_cons_of_neg (by decide), List.append_nil]

/-- a text has no colon, or splits at its first one -/
theorem colon_cases (s : Text) :
    (∀ c ∈ s, c ≠ 58) ∨ ∃ domain digits, (∀ c ∈ domain, c ≠ 58) ∧ s = domain ++ 58 :: digits := by
  by_cases hmem : 58 ∈ s
  · obtain ⟨domain, digits, hs, hdomain⟩ := List.eq_append_cons_of_mem hmem
    exact .inr ⟨domain, digits, fun c hc he => hdomain (he ▸ hc), hs⟩
  · exact .inl fun c hc he => hmem (he ▸ hc)

theorem parse_of_not_mem (hs : s ≠ []) (h : ∀ c ∈ s, c ≠ 58) : parse t s = (parseLoop s 0).map Id.mk := by
  rw [parse, if_neg hs, span_of_not_mem h]

theorem parse_of_append (h : ∀ c ∈ domain, c ≠ 58) :
    parse t (domain ++ 58 :: digits) =
      if domain ≠ t.name ∨ digits = [] then none else (parseLoop digits 0).map Id.mk := by
  rw [parse, if_neg (List.append_ne_nil_of_right_ne_nil _ (List.cons_ne_nil _ _)), span_of_append h]

/-- what stands in front of the first colon is determined -/
theorem append_colon_inj {domain' digits' : Text} (h : ∀ c ∈ domain, c ≠ 58) (h' : ∀ c ∈ domain', c ≠ 58)
    (he : domain ++ 58 :: digits = domain' ++ 58 :: digits') : domain = domain' ∧ digits = digits' := by
  have hspan := congrArg (List.span (· ≠ 58)) he
  rw [span_of_append h, span_of_append h', Prod.mk.injEq, List.cons.injEq] at hspan
  exact ⟨hspan.1, hspan.2.2⟩

end Colon

theorem map_mk_iff (t : IdTag) (ds : Text) (id : Id t) :
    (parseLoop ds 0).map Id.mk = some id ↔ (∀ c ∈ ds, Digit c) ∧ valueFrom 0 ds = id.value.toNat := by
  have hiff : parseLoop ds 0 = some id.value ↔ (∀ c ∈ ds, Digit c) ∧ valueFrom 0 ds = id.value.toNat :=
    parseLoop_iff ds 0 id.value
  rw [← hiff, Option.map_eq_some_iff]
  constructor
  · rintro ⟨v, hv, rfl⟩
    exact hv
  · intro hv
    exact ⟨id.value, hv, rfl⟩

/-- what is parsed is what the text denotes -/
theorem parse_iff (t : IdTag) (s : Text) (id : Id t) : parse t s = some id ↔ Denotes t s id.value.toNat := by
  have hcolon : lit ":" = [58] := by decide
  rcases colon_cases s with hs | ⟨domain, digits, hdomain, rfl⟩
  · -- without a colon the whole text is the digits
    by_cases hempty : s = []
    · rw [parse, if_pos hempty]
      refine iff_of_false (fun h => by cases h) ?_
      rintro ⟨ds, hne, -, rfl | hsplit, -⟩
      · exact hne hempty
      · rw [hempty] at hsplit
        exact List.append_ne_nil_of_right_ne_nil _ hne hsplit.symm
    rw [parse_of_not_mem hempty hs, map_mk_iff]
    constructor
    · intro h
      exact ⟨s, hempty, h.1, .inl rfl, h.2⟩
    · rintro ⟨ds, -, hdigits, rfl | hsplit, hvalue⟩
      · exact ⟨hdigits, hvalue⟩
      · refine absurd rfl (hs 58 ?_)
        rw [hsplit, hcolon]
        exact List.mem_append_left _ (List.mem_append_right _ List.mem_cons_self)
  · -- with one, the digits stand behind the first
    rw [parse_of_append hdomain]
    by_cases hbad : domain ≠ t.name ∨ digits = []
    · rw [if_pos hbad]
      refine iff_of_false (fun h => by cases h) ?_
      rintro ⟨ds, hne, hdigits, hself | hsplit, -⟩
      · exact digit_colon (hdigits 58 (hself ▸ List.mem_append_right _ List.mem_cons_self)) rfl
      · rw [hcolon, List.append_assoc, List.singleton_append] at hsplit
        obtain ⟨hname, hds⟩ := append_colon_inj hdomain (name_colon t) hsplit
        exact hbad.elim (fun hother => hother hname) fun hnil => hne (hds ▸ hnil)
    rw [if_neg hbad, map_mk_iff]
    rw [not_or, not_not] at hbad
    obtain ⟨hname, hne⟩ := hbad
    constructor
    · intro h
      refine ⟨digits, hne, h.1, .inr ?_, h.2⟩
      rw [hname, hcolon, List.append_assoc, List.singleton_append]
    · rintro ⟨ds, -, hdigits, hself | hsplit, hvalue⟩
      · exact absurd rfl (digit_colon (hdigits 58 (hself ▸ List.mem_append_right _ List.mem_cons_self)))
      · rw [hcolon, List.append_assoc, List.singleton_append] at hsplit
        obtain ⟨-, hds⟩ := append_colon_inj hdomain (name_colon t) hsplit
        exact hds ▸ ⟨hdigits, hvalue⟩

/-- **Identity text is parsed exactly.** Accepted are, with or without the domain and a colon in front, one digit or more
whose number is below 2^64; returned is that number. A valid identity is rendered, and parsed back from that. -/
theorem parse_exact (t : IdTag) :
    (∀ s (id : Id t), parse t s = some id ↔ Denotes t s id.value.toNat) ∧
      (∀ s, (∃ id, parse t s = some id) ↔ ∃ n < 2 ^ 64, Denotes t s n) ∧
      ∀ id : Id t, id.valid = true → ∃ s, render id = some s ∧ parse t s = some id := by
  refine ⟨parse_iff t, fun s => ?_, fun id hvalid => ⟨id.text, render_eq id, ?_⟩⟩
  · constructor
    · rintro ⟨id, hid⟩
      exact ⟨id.value.toNat, id.value.toNat_lt, (parse_iff t s id).mp hid⟩
    · rintro ⟨n, hn, hdenotes⟩
      refine ⟨⟨UInt64.ofNat n⟩, (parse_iff t s _).mpr ?_⟩
      rw [UInt64.toNat_ofNat', Nat.mod_eq_of_lt hn]
      exact hdenotes
  · refine (parse_iff t _ id).mpr
      ⟨decimal id.value.toNat, decimal_ne_nil _, digit_decimal _, .inr ?_, valueFrom_decimal _⟩
    rw [Id.text, if_pos hvalid]

end FaultContainment.IdentityText
