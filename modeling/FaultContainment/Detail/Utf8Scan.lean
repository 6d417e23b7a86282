/-
The scan of `is_valid_utf8`, index by index as the source runs it.

The scan reads the bytes at indices and counts code points in 32 bits. It is given as many iterations as a caller likes and
reports when they do not suffice, and also when it would read past the end: neither happens.

- `scan_eq`: from every index, enough iterations return what the rest of the text is.
- `isValidUtf8_exact`: the result is the grammar of RFC 3629.
-/
import FaultContainment.Detail.Utf8
import FaultContainment.Lib.Utf8

namespace FaultContainment.Utf8Scan

open FaultContainment.Lib FaultContainment.Ids FaultContainment.Utf8

/-! ## The source's loop -/

/-- how a scan ends -/
inductive Outcome where
  | returned (valid : Bool)
  | outOfRange
  | unfinished
  deriving DecidableEq

/-- the number of continuation bytes after a lead byte, its bits, and the smallest number of that length -/
def lead (c0 : UInt8) : Option (ℕ × UInt32 × UInt32) :=
  if c0 &&& 0xE0 = 0xC0 then some (1, (c0 &&& 0x1F).toUInt32, 0x80)
  else if c0 &&& 0xF0 = 0xE0 then some (2, (c0 &&& 0x0F).toUInt32, 0x800)
  else if c0 &&& 0xF8 = 0xF0 then some (3, (c0 &&& 0x07).toUInt32, 0x10000)
  else none

/-- what the continuation bytes of a character come to: none where a read is out of range, and none inside where a byte is no
continuation -/
def gather (text : Bytes) : ℕ → ℕ → UInt32 → Option (Option UInt32)
  | 0, _, code => some (some code)
  | extra + 1, k, code =>
    match text[k]? with
    | none => none
    | some cc =>
      if cc &&& 0xC0 = 0x80 then gather text extra (k + 1) ((code <<< 6) ||| (cc &&& 0x3F).toUInt32) else some none

/-- `is_valid_utf8` from an index on -/
def scan (text : Bytes) : ℕ → ℕ → Outcome
  | 0, _ => .unfinished
  | fuel + 1, i =>
    if i < text.length then
      match text[i]? with
      | none => .outOfRange
      | some c0 =>
        if c0 < 0x80 then scan text fuel (i + 1)
        else
          match lead c0 with
          | none => .returned false
          | some (extra, code, minimum) =>
            if text.length ≤ i + extra then .returned false
            else
              match gather text extra (i + 1) code with
              | none => .outOfRange
              | some none => .returned false
              | some (some code) =>
                if code < minimum ∨ 0x10FFFF < code ∨ 0xD800 ≤ code ∧ code ≤ 0xDFFF then .returned false
                else scan text fuel (i + extra + 1)
    else .returned true

/-! ## Masks -/

/-- the masks of the source, for every byte -/
theorem masks : ∀ n < 256, ((UInt8.ofNat n &&& 0xE0 = 0xC0) ↔ n / 32 = 6) ∧ ((UInt8.ofNat n &&& 0xF0 = 0xE0) ↔ n / 16 = 14) ∧
    ((UInt8.ofNat n &&& 0xF8 = 0xF0) ↔ n / 8 = 30) ∧ ((UInt8.ofNat n &&& 0xC0 = 0x80) ↔ n / 64 = 2) ∧
    (UInt8.ofNat n &&& 0x1F).toNat = n % 32 ∧ (UInt8.ofNat n &&& 0x0F).toNat = n % 16 ∧
    (UInt8.ofNat n &&& 0x07).toNat = n % 8 ∧ (UInt8.ofNat n &&& 0x3F).toNat = n % 64 := by
  decide +kernel

theorem lead_eq (c0 : UInt8) : lead c0 =
    if c0.toNat / 32 = 6 then some (1, (c0 &&& 0x1F).toUInt32, 0x80)
    else if c0.toNat / 16 = 14 then some (2, (c0 &&& 0x0F).toUInt32, 0x800)
    else if c0.toNat / 8 = 30 then some (3, (c0 &&& 0x07).toUInt32, 0x10000)
    else none := by
  obtain ⟨h2, h3, h4, -⟩ := masks c0.toNat c0.toNat_lt
  rw [UInt8.ofNat_toNat] at h2 h3 h4
  unfold lead
  simp only [h2, h3, h4]

/-- six more bits behind a number of at most 26 -/
theorem shift_or (code : UInt32) (cc : UInt8) (h : code.toNat < 2 ^ 26) :
    ((code <<< 6) ||| (cc &&& 0x3F).toUInt32).toNat = code.toNat * 64 + cc.toNat % 64 := by
  obtain ⟨-, -, -, -, -, -, -, hlow⟩ := masks cc.toNat cc.toNat_lt
  rw [UInt8.ofNat_toNat] at hlow
  have hshift : (code <<< 6).toNat = 2 ^ 6 * code.toNat := by
    have hsix : (6 : UInt32).toNat % 32 = 6 := rfl
    rw [UInt32.toNat_shiftLeft, hsix, Nat.shiftLeft_eq, Nat.mod_eq_of_lt (by omega), Nat.mul_comm]
  rw [UInt32.toNat_or, hshift, UInt8.toNat_toUInt32, hlow, ← Nat.two_pow_add_eq_or_of_lt (Nat.mod_lt _ (by decide))]
  omega

/-! ## Suffixes -/

theorem gather_append (pre text : Bytes) (extra k : ℕ) (code : UInt32) :
    gather (pre ++ text) extra (pre.length + k) code = gather text extra k code := by
  induction extra generalizing k code with
  | zero => rfl
  | succ extra ih =>
    have hread : (pre ++ text)[pre.length + k]? = text[k]? := by
      rw [List.getElem?_append_right (Nat.le_add_right _ _), Nat.add_sub_cancel_left]
    unfold gather
    rw [hread]
    simp only [Nat.add_assoc, ih]

/-- what lies behind the index does not matter -/
theorem scan_append (pre text : Bytes) (fuel i : ℕ) :
    scan (pre ++ text) fuel (pre.length + i) = scan text fuel i := by
  induction fuel generalizing i with
  | zero => rfl
  | succ fuel ih =>
    have hread : (pre ++ text)[pre.length + i]? = text[i]? := by
      rw [List.getElem?_append_right (Nat.le_add_right _ _), Nat.add_sub_cancel_left]
    unfold scan
    rw [hread]
    simp only [List.length_append, Nat.add_assoc, Nat.add_lt_add_iff_left, Nat.add_le_add_iff_left, ih, gather_append]

/-- one continuation byte -/
theorem gather_cons (cc : UInt8) (text : Bytes) (extra : ℕ) (code : UInt32) :
    gather (cc :: text) (extra + 1) 0 code =
      if isContinuation cc = true then gather text extra 0 ((code <<< 6) ||| (cc &&& 0x3F).toUInt32) else some none := by
  have hbyte : (cc &&& 0xC0 = 0x80) ↔ isContinuation cc = true := by
    obtain ⟨-, -, -, hcontinuation, -⟩ := masks cc.toNat cc.toNat_lt
    rw [UInt8.ofNat_toNat] at hcontinuation
    exact hcontinuation.trans decide_eq_true_iff.symm
  have hrest : gather (cc :: text) extra 1 ((code <<< 6) ||| (cc &&& 0x3F).toUInt32) =
      gather text extra 0 ((code <<< 6) ||| (cc &&& 0x3F).toUInt32) := gather_append [cc] text extra 0 _
  rw [gather]
  simp only [List.getElem?_cons_zero, Nat.zero_add, hrest, hbyte]

/-- the last checks of the source -/
theorem refused_iff (minimum code : UInt32) :
    (code < minimum ∨ 0x10FFFF < code ∨ 0xD800 ≤ code ∧ code ≤ 0xDFFF) ↔ isScalar minimum.toNat code.toNat = false := by
  rw [UInt32.lt_iff_toNat_lt, UInt32.lt_iff_toNat_lt, UInt32.le_iff_toNat_le, UInt32.le_iff_toNat_le]
  have h1 : (0x10FFFF : UInt32).toNat = 0x10FFFF := rfl
  have h2 : (0xD800 : UInt32).toNat = 0xD800 := rfl
  have h3 : (0xDFFF : UInt32).toNat = 0xDFFF := rfl
  rw [h1, h2, h3, isScalar, Bool.eq_false_iff]
  simp only [ne_eq, Bool.and_eq_true, Bool.not_eq_true', decide_eq_true_eq, decide_eq_false_iff_not, Bool.and_eq_false_iff]
  omega

/-! ## Every text -/

/-- a character of `extra` continuation bytes in front of a text -/
theorem scan_lead {c0 : UInt8} {tail : Bytes} {fuel extra : ℕ} {code minimum : UInt32} (h1 : ¬ c0.toNat < 0x80)
    (hlead : lead c0 = some (extra, code, minimum)) :
    scan (c0 :: tail) (fuel + 1) 0 =
      if tail.length < extra then .returned false
      else
        match gather tail extra 0 code with
        | none => .outOfRange
        | some none => .returned false
        | some (some code) =>
          if isScalar minimum.toNat code.toNat = false then .returned false else scan tail fuel extra := by
  have hlow : ¬ c0 < 0x80 := h1
  have hgather : gather (c0 :: tail) extra (0 + 1) code = gather tail extra 0 code := gather_append [c0] tail extra 0 code
  have hscan : scan (c0 :: tail) fuel (0 + extra + 1) = scan tail fuel extra := by
    rw [Nat.zero_add, Nat.add_comm]
    exact scan_append [c0] tail fuel extra
  have hlen : (c0 :: tail).length ≤ 0 + extra ↔ tail.length < extra := by
    rw [List.length_cons, Nat.zero_add, Nat.succ_le_iff]
  rw [scan, if_pos (by rw [List.length_cons]; exact Nat.succ_pos _), List.getElem?_cons_zero]
  dsimp only
  rw [if_neg hlow, hlead]
  dsimp only
  simp only [hgather, hscan, hlen, refused_iff]

/-- a whole character is checked, and then the rest of the text -/
theorem scan_character {c0 : UInt8} (cs : Bytes) {rest : Bytes} {fuel extra : ℕ} {code minimum x : UInt32} {p v : Bool}
    (h1 : ¬ c0.toNat < 0x80) (hlead : lead c0 = some (extra, code, minimum)) (hlen : cs.length = extra)
    (hgather : gather (cs ++ rest) extra 0 code = if p = true then some (some x) else some none)
    (hrest : scan rest fuel 0 = .returned v) :
    scan (c0 :: (cs ++ rest)) (fuel + 1) 0 = .returned (p && isScalar minimum.toNat x.toNat && v) := by
  have hbehind : scan (cs ++ rest) fuel extra = scan rest fuel 0 := by
    rw [← hlen]
    exact scan_append cs rest fuel 0
  rw [scan_lead h1 hlead, if_neg (by rw [List.length_append]; omega), hgather, hbehind, hrest]
  cases p with
  | false => rfl
  | true =>
    rw [if_pos rfl]
    dsimp only
    cases isScalar minimum.toNat x.toNat with
    | false => rfl
    | true => rfl

/-- a character that is cut off -/
theorem scan_truncated {c0 : UInt8} {tail : Bytes} {fuel extra : ℕ} {code minimum : UInt32} (h1 : ¬ c0.toNat < 0x80)
    (hlead : lead c0 = some (extra, code, minimum)) (hlen : tail.length < extra) :
    scan (c0 :: tail) (fuel + 1) 0 = .returned false := by
  rw [scan_lead h1 hlead, if_pos hlen]

theorem gather_one (code : UInt32) (hcode : code.toNat < 2 ^ 26) (c1 : UInt8) (rest : Bytes) :
    ∃ x : UInt32, x.toNat = code.toNat * 64 + c1.toNat % 64 ∧
      gather (c1 :: rest) 1 0 code = if isContinuation c1 = true then some (some x) else some none :=
  ⟨_, shift_or code c1 hcode, gather_cons c1 rest 0 code⟩

theorem gather_two (code : UInt32) (hcode : code.toNat < 2 ^ 20) (c1 c2 : UInt8) (rest : Bytes) :
    ∃ x : UInt32, x.toNat = (code.toNat * 64 + c1.toNat % 64) * 64 + c2.toNat % 64 ∧
      gather (c1 :: c2 :: rest) 2 0 code =
        if (isContinuation c1 && isContinuation c2) = true then some (some x) else some none := by
  have hfirst := shift_or code c1 (by omega)
  obtain ⟨x, hx, hgather⟩ := gather_one ((code <<< 6) ||| (c1 &&& 0x3F).toUInt32) (by omega) c2 rest
  refine ⟨x, by rw [hx, hfirst], ?_⟩
  rw [gather_cons, hgather]
  cases isContinuation c1 with
  | false => rfl
  | true => rfl

theorem gather_three (code : UInt32) (hcode : code.toNat < 2 ^ 14) (c1 c2 c3 : UInt8) (rest : Bytes) :
    ∃ x : UInt32, x.toNat = ((code.toNat * 64 + c1.toNat % 64) * 64 + c2.toNat % 64) * 64 + c3.toNat % 64 ∧
      gather (c1 :: c2 :: c3 :: rest) 3 0 code =
        if (isContinuation c1 && isContinuation c2 && isContinuation c3) = true then some (some x) else some none := by
  have hfirst := shift_or code c1 (by omega)
  obtain ⟨x, hx, hgather⟩ := gather_two ((code <<< 6) ||| (c1 &&& 0x3F).toUInt32) (by omega) c2 c3 rest
  refine ⟨x, by rw [hx, hfirst], ?_⟩
  rw [gather_cons, hgather]
  cases isContinuation c1 with
  | false => rfl
  | true => rfl

/-- the low bits of a lead byte -/
theorem lead_bits (c0 : UInt8) : (c0 &&& 0x1F).toUInt32.toNat = c0.toNat % 32 ∧
    (c0 &&& 0x0F).toUInt32.toNat = c0.toNat % 16 ∧ (c0 &&& 0x07).toUInt32.toNat = c0.toNat % 8 := by
  obtain ⟨-, -, -, -, h5, h4, h3, -⟩ := masks c0.toNat c0.toNat_lt
  rw [UInt8.ofNat_toNat] at h5 h4 h3
  rw [UInt8.toNat_toUInt32, UInt8.toNat_toUInt32, UInt8.toNat_toUInt32]
  exact ⟨h5, h4, h3⟩

/-- **The scan ends and stays inside.** More iterations than bytes return what the text is. -/
theorem scan_eq (text : Bytes) (fuel : ℕ) (h : text.length < fuel) : scan text fuel 0 = .returned (isValidUtf8 text) := by
  obtain ⟨fuel, rfl⟩ : ∃ n, fuel = n + 1 := ⟨fuel - 1, by omega⟩
  fun_induction isValidUtf8 text generalizing fuel with
  | case1 => rfl
  | case2 c0 rest h1 ih =>
    have hlow : c0 < 0x80 := h1
    have hrest : scan (c0 :: rest) fuel (0 + 1) = scan rest fuel 0 := scan_append [c0] rest fuel 0
    obtain ⟨fuel, rfl⟩ : ∃ n, fuel = n + 1 := ⟨fuel - 1, by rw [List.length_cons] at h; omega⟩
    rw [scan, if_pos (by rw [List.length_cons]; exact Nat.succ_pos _), List.getElem?_cons_zero]
    dsimp only
    rw [if_pos hlow, hrest]
    exact ih fuel (Nat.lt_of_succ_lt_succ h)
  | case3 c0 h1 h2 c1 rest ih =>
    obtain ⟨fuel, rfl⟩ : ∃ n, fuel = n + 1 := ⟨fuel - 1, by simp only [List.length_cons] at h; omega⟩
    have hbits := (lead_bits c0).1
    have hlead : lead c0 = some (1, (c0 &&& 0x1F).toUInt32, 0x80) := by rw [lead_eq, if_pos h2]
    obtain ⟨x, hx, hgather⟩ := gather_one ((c0 &&& 0x1F).toUInt32) (by rw [hbits]; omega) c1 rest
    rw [hbits] at hx
    rw [← hx]
    exact scan_character [c1] h1 hlead rfl hgather (ih fuel (by simp only [List.length_cons] at h; omega))
  | case4 c0 h1 h2 =>
    have hlead : lead c0 = some (1, (c0 &&& 0x1F).toUInt32, 0x80) := by rw [lead_eq, if_pos h2]
    exact scan_truncated h1 hlead Nat.zero_lt_one
  | case5 c0 h1 h2 h3 c1 c2 rest ih =>
    obtain ⟨fuel, rfl⟩ : ∃ n, fuel = n + 1 := ⟨fuel - 1, by simp only [List.length_cons] at h; omega⟩
    have hbits := (lead_bits c0).2.1
    have hlead : lead c0 = some (2, (c0 &&& 0x0F).toUInt32, 0x800) := by rw [lead_eq, if_neg h2, if_pos h3]
    obtain ⟨x, hx, hgather⟩ := gather_two ((c0 &&& 0x0F).toUInt32) (by rw [hbits]; omega) c1 c2 rest
    rw [hbits] at hx
    rw [← hx]
    exact scan_character [c1, c2] h1 hlead rfl hgather (ih fuel (by simp only [List.length_cons] at h; omega))
  | case6 c0 rest h1 h2 h3 hshort =>
    have hlead : lead c0 = some (2, (c0 &&& 0x0F).toUInt32, 0x800) := by rw [lead_eq, if_neg h2, if_pos h3]
    refine scan_truncated h1 hlead ?_
    rcases rest with _ | ⟨c1, _ | ⟨c2, rest⟩⟩
    · exact Nat.zero_lt_two
    · exact Nat.one_lt_two
    · exact absurd rfl (hshort c1 c2 rest)
  | case7 c0 h1 h2 h3 h4 c1 c2 c3 rest ih =>
    obtain ⟨fuel, rfl⟩ : ∃ n, fuel = n + 1 := ⟨fuel - 1, by simp only [List.length_cons] at h; omega⟩
    have hbits := (lead_bits c0).2.2
    have hlead : lead c0 = some (3, (c0 &&& 0x07).toUInt32, 0x10000) := by
      rw [lead_eq, if_neg h2, if_neg h3, if_pos h4]
    obtain ⟨x, hx, hgather⟩ := gather_three ((c0 &&& 0x07).toUInt32) (by rw [hbits]; omega) c1 c2 c3 rest
    rw [hbits] at hx
    rw [← hx]
    exact scan_character [c1, c2, c3] h1 hlead rfl hgather (ih fuel (by simp only [List.length_cons] at h; omega))
  | case8 c0 rest h1 h2 h3 h4 hshort =>
    have hlead : lead c0 = some (3, (c0 &&& 0x07).toUInt32, 0x10000) := by
      rw [lead_eq, if_neg h2, if_neg h3, if_pos h4]
    refine scan_truncated h1 hlead ?_
    rcases rest with _ | ⟨c1, _ | ⟨c2, _ | ⟨c3, rest⟩⟩⟩
    · exact Nat.zero_lt_succ 2
    · exact Nat.succ_lt_succ (Nat.zero_lt_succ 1)
    · exact Nat.lt_succ_self 2
    · exact absurd rfl (hshort c1 c2 c3 rest)
  | case9 c0 rest h1 h2 h3 h4 =>
    have hlow : ¬ c0 < 0x80 := h1
    have hlead : lead c0 = none := by rw [lead_eq, if_neg h2, if_neg h3, if_neg h4]
    rw [scan, if_pos (by rw [List.length_cons]; exact Nat.succ_pos _), List.getElem?_cons_zero]
    dsimp only
    rw [if_neg hlow, hlead]

/-! ## The grammar -/

/-- **Valid texts are those of the grammar.** -/
theorem isValidUtf8_iff (text : Bytes) : isValidUtf8 text = true ↔ Lib.Utf8.Text text := by
  constructor
  · intro h
    fun_induction isValidUtf8 text with
    | case1 => exact .nil
    | case2 c0 rest h1 ih => exact .cons (.one (Nat.le_of_lt_succ h1)) (ih h)
    | case3 c0 h1 h2 c1 rest ih =>
      rw [Bool.and_eq_true, Bool.and_eq_true] at h
      obtain ⟨⟨hc1, hscalar⟩, hrest⟩ := h
      have hc1 := of_decide_eq_true hc1
      simp only [isScalar, Bool.and_eq_true, decide_eq_true_eq] at hscalar
      refine .cons (.two ?_ ?_) (ih hrest)
      · omega
      · rw [Lib.Utf8.Tail]
        omega
    | case4 => cases h
    | case5 c0 h1 h2 h3 c1 c2 rest ih =>
      simp only [Bool.and_eq_true, isContinuation, isScalar, decide_eq_true_eq, Bool.not_eq_true',
        Bool.and_eq_false_iff, decide_eq_false_iff_not] at h
      obtain ⟨⟨⟨hc1, hc2⟩, ⟨hlow, hhigh⟩, hsurrogate⟩, hrest⟩ := h
      refine .cons (.three ?_ ?_ ?_ ?_ ?_) (ih hrest)
      · omega
      · rw [Lib.Utf8.Tail]
        omega
      · rw [Lib.Utf8.Tail]
        omega
      · omega
      · omega
    | case6 => cases h
    | case7 c0 h1 h2 h3 h4 c1 c2 c3 rest ih =>
      simp only [Bool.and_eq_true, isContinuation, isScalar, decide_eq_true_eq, Bool.not_eq_true',
        Bool.and_eq_false_iff, decide_eq_false_iff_not] at h
      obtain ⟨⟨⟨⟨hc1, hc2⟩, hc3⟩, ⟨hlow, hhigh⟩, hsurrogate⟩, hrest⟩ := h
      refine .cons (.four ?_ ?_ ?_ ?_ ?_ ?_) (ih hrest)
      · omega
      · rw [Lib.Utf8.Tail]
        omega
      · rw [Lib.Utf8.Tail]
        omega
      · rw [Lib.Utf8.Tail]
        omega
      · omega
      · omega
    | case8 => cases h
    | case9 => cases h
  · intro h
    obtain ⟨cs, rfl⟩ := (Lib.Utf8.text_iff text).mp h
    exact isValidUtf8_ofChars cs

/-- **UTF-8 validation is exact.** A byte string is valid when it is a text of RFC 3629, which is to say the encoding of a list
of scalar values; and the scan of the source, given more iterations than there are bytes, returns just that. -/
theorem isValidUtf8_exact (text : Bytes) :
    (isValidUtf8 text = true ↔ Lib.Utf8.Text text) ∧
    (isValidUtf8 text = true ↔ ∃ cs : List Char, ofChars cs = text) ∧
    ∀ fuel, text.length < fuel → scan text fuel 0 = .returned (isValidUtf8 text) :=
  ⟨isValidUtf8_iff text, (isValidUtf8_iff text).trans (Lib.Utf8.text_iff text), fun fuel h => scan_eq text fuel h⟩

end FaultContainment.Utf8Scan
