/-
Append-only logs of framed records, and their scan after a crash.

A frame is a magic number, a length, a checksum and a payload. The scan reads frame after frame; what is too short to hold
a header, or to hold the payload its header announces, is taken for the torn tail of the last write and ends the scan.
Anything else that does not parse is an error.

- `scan_frame`, `scan_frames`: a frame in front of any bytes is read, and then the bytes.
- `scan_torn`: a proper prefix of a frame is a torn tail, of every length.
- `scan_cut`, `scan_of_cut`: a scan reads the frames in front of a torn tail, and there is one way to cut a log so.
-/
import Mathlib.Data.List.Sort
import FaultContainment.Lib.Codec

namespace FaultContainment.Lib

/-! ## Frames -/

/-- a frame format: the magic number, the payload sizes a reader accepts, the checksum -/
structure FrameFormat where
  magic : ℕ
  minLen : ℕ
  maxLen : ℕ
  check : Bytes → UInt32
  magic_lt : magic < 256 ^ 4
  maxLen_lt : maxLen < 256 ^ 4

/-- what a scan refuses, with the offset of the frame -/
inductive ScanError where
  | badMagic (offset : ℕ) | absurdLength (offset : ℕ) | badChecksum (offset : ℕ) | shortPayload (offset : ℕ)
  deriving DecidableEq

namespace FrameFormat

variable (f : FrameFormat)

/-- bytes of a header -/
abbrev headerLen : ℕ := 12

/-- the bytes of one frame -/
def frame (payload : Bytes) : Bytes :=
  leBytes 4 f.magic ++ leBytes 4 payload.length ++ leBytes 4 (f.check payload).toNat ++ payload

/-- what the reader accepts as a payload -/
def Legal (payload : Bytes) : Prop := f.minLen ≤ payload.length ∧ payload.length ≤ f.maxLen

/-- one frame after the other -/
def frames (ps : List Bytes) : Bytes := (ps.map f.frame).flatten

/-- the payloads in front, and how many bytes were left as a torn tail -/
def scanFrom : ℕ → ℕ → Bytes → Except ScanError (List Bytes × ℕ)
  | 0, _, _ => .ok ([], 0)
  | fuel + 1, offset, bs =>
    if bs.length = 0 then .ok ([], 0)
    else if bs.length < headerLen then .ok ([], bs.length)
    else if leNat (bs.take 4) ≠ f.magic then .error (.badMagic offset)
    else if f.maxLen < leNat ((bs.drop 4).take 4) then .error (.absurdLength offset)
    else if bs.length < headerLen + leNat ((bs.drop 4).take 4) then .ok ([], bs.length)
    else if (f.check ((bs.drop headerLen).take (leNat ((bs.drop 4).take 4)))).toNat ≠ leNat ((bs.drop 8).take 4) then
      .error (.badChecksum offset)
    else if leNat ((bs.drop 4).take 4) < f.minLen then .error (.shortPayload offset)
    else
      match scanFrom fuel (offset + (headerLen + leNat ((bs.drop 4).take 4)))
        (bs.drop (headerLen + leNat ((bs.drop 4).take 4))) with
      | .ok (ps, torn) => .ok ((bs.drop headerLen).take (leNat ((bs.drop 4).take 4)) :: ps, torn)
      | .error e => .error e

/-- the scan of a whole file; every frame takes at least a header, so the length is fuel enough -/
def scan (bs : Bytes) : Except ScanError (List Bytes × ℕ) := f.scanFrom bs.length 0 bs

@[simp] theorem frame_length (p : Bytes) : (f.frame p).length = headerLen + p.length := by
  simp [frame, headerLen]; omega

@[simp] theorem frames_nil : f.frames [] = [] := rfl
@[simp] theorem frames_cons (p : Bytes) (ps : List Bytes) : f.frames (p :: ps) = f.frame p ++ f.frames ps := rfl

@[simp] theorem frames_append (ps qs : List Bytes) : f.frames (ps ++ qs) = f.frames ps ++ f.frames qs := by
  simp [frames]

theorem frames_length (ps : List Bytes) : (f.frames ps).length = (ps.map fun p => headerLen + p.length).sum := by
  induction ps with
  | nil => rfl
  | cons p ps ih => simp [ih]

/-! ## Scanning -/

/-- more fuel than bytes changes nothing -/
theorem scanFrom_fuel (n m offset : ℕ) (bs : Bytes) (hn : bs.length ≤ n) (hm : bs.length ≤ m) :
    f.scanFrom n offset bs = f.scanFrom m offset bs := by
  induction n generalizing m offset bs with
  | zero =>
    obtain rfl : bs = [] := List.length_eq_zero_iff.mp (by omega)
    cases m <;> simp [scanFrom]
  | succ n ih =>
    cases m with
    | zero =>
      obtain rfl : bs = [] := List.length_eq_zero_iff.mp (by omega)
      simp [scanFrom]
    | succ m =>
      have hrec := ih m (offset + (headerLen + leNat ((bs.drop 4).take 4)))
        (bs.drop (headerLen + leNat ((bs.drop 4).take 4)))
      rw [List.length_drop] at hrec
      simp only [scanFrom]
      split_ifs <;> try rfl
      rw [hrec (by simp only [headerLen]; omega) (by simp only [headerLen]; omega)]

theorem header_take4 (p rest : Bytes) : (f.frame p ++ rest).take 4 = leBytes 4 f.magic := by
  simp [frame, List.append_assoc]

theorem header_len (p rest : Bytes) : ((f.frame p ++ rest).drop 4).take 4 = leBytes 4 p.length := by
  simp [frame, List.append_assoc]

theorem header_check (p rest : Bytes) : ((f.frame p ++ rest).drop 8).take 4 = leBytes 4 (f.check p).toNat := by
  have h : (leBytes 4 f.magic).drop 8 = [] := List.drop_eq_nil_of_le (by simp)
  simp [frame, List.append_assoc, List.drop_append, h]

theorem drop_header (p rest : Bytes) : (f.frame p ++ rest).drop headerLen = p ++ rest := by
  have h1 : (leBytes 4 f.magic).drop 12 = [] := List.drop_eq_nil_of_le (by simp)
  have h2 : (leBytes 4 p.length).drop 8 = [] := List.drop_eq_nil_of_le (by simp)
  simp [frame, List.append_assoc, List.drop_append, headerLen, h1, h2]

theorem drop_frame (p rest : Bytes) : (f.frame p ++ rest).drop (headerLen + p.length) = rest := by
  rw [← f.frame_length p, List.drop_left]

/-- a frame in front of any bytes is read, and then the bytes -/
theorem scanFrom_frame {p : Bytes} (hp : f.Legal p) (n offset : ℕ) (rest : Bytes)
    (hn : (f.frame p ++ rest).length ≤ n) :
    f.scanFrom n offset (f.frame p ++ rest) =
      match f.scanFrom rest.length (offset + (headerLen + p.length)) rest with
      | .ok (ps, torn) => .ok (p :: ps, torn)
      | .error e => .error e := by
  have hmagic : leNat (leBytes 4 f.magic) = f.magic := leNat_leBytes_of_lt f.magic_lt
  have hlen : leNat (leBytes 4 p.length) = p.length := leNat_leBytes_of_lt (lt_of_le_of_lt hp.2 f.maxLen_lt)
  have hcheck : leNat (leBytes 4 (f.check p).toNat) = (f.check p).toNat := leNat_leBytes_of_lt (UInt32.toNat_lt _)
  have hl : (f.frame p ++ rest).length = headerLen + p.length + rest.length := by simp
  cases n with
  | zero => simp at hn
  | succ n =>
    rw [scanFrom]
    simp only [header_take4, header_len, header_check, drop_header, drop_frame, hmagic, hlen, hcheck,
      List.take_left, hl, ne_eq, not_true_eq_false, if_false]
    rw [if_neg (by simp only [headerLen]; omega), if_neg (by simp only [headerLen]; omega), if_neg (not_lt.mpr hp.2),
      if_neg (by omega), if_neg (not_lt.mpr hp.1), f.scanFrom_fuel n rest.length _ rest (by
        rw [hl] at hn; simp only [headerLen] at hn; omega) le_rfl]

/-- the torn count and the payloads do not depend on where the file starts -/
theorem scanFrom_ok_offset (n o o' : ℕ) (bs : Bytes) (r : List Bytes × ℕ) (h : f.scanFrom n o bs = .ok r) :
    f.scanFrom n o' bs = .ok r := by
  induction n generalizing o o' bs r with
  | zero => simpa [scanFrom] using h
  | succ n ih =>
    simp only [scanFrom] at h ⊢
    split_ifs at h ⊢ <;> first | exact h | skip
    revert h
    cases hs : f.scanFrom n (o + (headerLen + leNat ((bs.drop 4).take 4)))
        (bs.drop (headerLen + leNat ((bs.drop 4).take 4))) with
    | error e => simp
    | ok q =>
      rw [ih _ (o' + (headerLen + leNat ((bs.drop 4).take 4))) _ q hs]
      exact id

/-- **A frame is scanned.** -/
theorem scan_frame_ok {p : Bytes} (hp : f.Legal p) (rest : Bytes) (r : List Bytes × ℕ) :
    f.scan (f.frame p ++ rest) = .ok r ↔ ∃ ps torn, f.scan rest = .ok (ps, torn) ∧ r = (p :: ps, torn) := by
  rw [scan, f.scanFrom_frame hp _ 0 rest le_rfl]
  constructor
  · intro h
    split at h
    · next ps torn hs => exact ⟨ps, torn, f.scanFrom_ok_offset _ _ 0 _ _ hs, (Except.ok.inj h).symm⟩
    · simp at h
  · rintro ⟨ps, torn, hs, rfl⟩
    rw [f.scanFrom_ok_offset _ _ (0 + (headerLen + p.length)) _ _ hs]

/-- **Whole frames are scanned, then the rest.** -/
theorem scan_frames_ok (ps : List Bytes) (hps : ∀ p ∈ ps, f.Legal p) (rest : Bytes) (r : List Bytes × ℕ) :
    f.scan (f.frames ps ++ rest) = .ok r ↔ ∃ qs torn, f.scan rest = .ok (qs, torn) ∧ r = (ps ++ qs, torn) := by
  induction ps generalizing r with
  | nil =>
    constructor
    · intro h; exact ⟨r.1, r.2, h, rfl⟩
    · rintro ⟨qs, torn, h, rfl⟩; exact h
  | cons p ps ih =>
    rw [frames_cons, List.append_assoc, f.scan_frame_ok (hps p (by simp))]
    constructor
    · rintro ⟨qs, torn, h, rfl⟩
      obtain ⟨qs', torn', h', he⟩ := (ih (fun q hq => hps q (by simp [hq])) _).mp h
      obtain ⟨rfl, rfl⟩ := Prod.mk.inj he
      exact ⟨qs', torn, h', rfl⟩
    · rintro ⟨qs, torn, h, rfl⟩
      exact ⟨ps ++ qs, torn, (ih (fun q hq => hps q (by simp [hq])) _).mpr ⟨qs, torn, h, rfl⟩, rfl⟩

theorem scan_nil : f.scan [] = .ok ([], 0) := rfl

/-- a log of whole frames is read back -/
theorem scan_frames (ps : List Bytes) (hps : ∀ p ∈ ps, f.Legal p) : f.scan (f.frames ps) = .ok (ps, 0) := by
  have := (f.scan_frames_ok ps hps [] (ps, 0)).mpr ⟨[], 0, f.scan_nil, by simp⟩
  rwa [List.append_nil] at this

/-- a log of whole frames is refused when one of them is above the reader's ceiling -/
theorem scan_legal {ps : List Bytes} (hps : ∀ p ∈ ps, f.minLen ≤ p.length ∧ p.length < 256 ^ 4)
    {r : List Bytes × ℕ} (h : f.scan (f.frames ps) = .ok r) : ∀ p ∈ ps, f.Legal p := by
  induction ps generalizing r with
  | nil => exact fun p hp => by cases hp
  | cons p ps ih =>
    obtain ⟨⟨hmin, hlt⟩, hrest⟩ := List.forall_mem_cons.mp hps
    rw [frames_cons] at h
    by_cases hmax : p.length ≤ f.maxLen
    · obtain ⟨qs, torn, hscan, -⟩ := (f.scan_frame_ok ⟨hmin, hmax⟩ (f.frames ps) r).mp h
      exact List.forall_mem_cons.mpr ⟨⟨hmin, hmax⟩, ih hrest hscan⟩
    · -- the length word is looked at before the payload
      have hmagic : leNat (leBytes 4 f.magic) = f.magic := leNat_leBytes_of_lt f.magic_lt
      have hlen : leNat (leBytes 4 p.length) = p.length := leNat_leBytes_of_lt hlt
      have hfile : (f.frame p ++ f.frames ps).length = headerLen + p.length + (f.frames ps).length := by
        rw [List.length_append, frame_length]
      unfold scan at h
      rw [hfile, show headerLen + p.length + (f.frames ps).length = 11 + p.length + (f.frames ps).length + 1 by
        simp only [headerLen]; omega] at h
      unfold scanFrom at h
      rw [f.header_take4, f.header_len, hmagic, hlen, if_neg (by rw [hfile]; simp only [headerLen]; omega),
        if_neg (by rw [hfile]; simp only [headerLen]; omega), if_neg (not_not.mpr rfl),
        if_pos (not_le.mp hmax)] at h
      cases h

/-- **Every proper prefix of a frame is a torn tail.** -/
theorem scan_torn {p : Bytes} (hp : f.Legal p) {k : ℕ} (hk : k < (f.frame p).length) :
    f.scan ((f.frame p).take k) = .ok ([], k) := by
  have hlen : leNat (leBytes 4 p.length) = p.length := leNat_leBytes_of_lt (lt_of_le_of_lt hp.2 f.maxLen_lt)
  have hmagic : leNat (leBytes 4 f.magic) = f.magic := leNat_leBytes_of_lt f.magic_lt
  have hl : ((f.frame p).take k).length = k := by rw [List.length_take]; omega
  rw [scan, hl]
  cases k with
  | zero => rfl
  | succ k =>
    rw [scanFrom, hl, if_neg (by omega)]
    split_ifs with h1 h2 h3 h4
    · rfl
    · -- a whole header starts with the magic number
      exfalso; apply h2
      rw [List.take_take, min_eq_left (by simp only [headerLen] at h1; omega)]
      have := f.header_take4 p []
      rw [List.append_nil] at this
      rw [this, hmagic]
    · exfalso
      rw [List.drop_take, List.take_take, min_eq_left (by simp only [headerLen] at h1; omega)] at h3
      have := f.header_len p []
      rw [List.append_nil] at this
      rw [this, hlen] at h3
      exact absurd hp.2 (not_le.mpr h3)
    · rfl
    all_goals
      exfalso; apply h4
      rw [List.drop_take, List.take_take, min_eq_left (by simp only [headerLen] at h1; omega)]
      have := f.header_len p []
      rw [List.append_nil] at this
      rw [this, hlen, ← f.frame_length p]
      exact hk

/-- **What a successful scan read.** The file is the frames of the payloads in front of the torn bytes. -/
theorem scanFrom_split (n o : ℕ) (bs : Bytes) (ps : List Bytes) (torn : ℕ) (hn : bs.length ≤ n)
    (h : f.scanFrom n o bs = .ok (ps, torn)) :
    ∃ tail, bs = f.frames ps ++ tail ∧ tail.length = torn ∧ ∀ p ∈ ps, f.Legal p := by
  induction n generalizing o bs ps torn with
  | zero =>
    obtain rfl : bs = [] := List.length_eq_zero_iff.mp (by omega)
    obtain ⟨rfl, rfl⟩ : [] = ps ∧ 0 = torn := by simpa [scanFrom] using h
    exact ⟨[], by simp⟩
  | succ n ih =>
    rw [scanFrom] at h
    split_ifs at h with h0 h1 h2 h3 h4 h5 h6
    · obtain ⟨rfl, rfl⟩ : [] = ps ∧ 0 = torn := by simpa using h
      exact ⟨bs, by simp, h0, by simp⟩
    · obtain ⟨rfl, rfl⟩ : [] = ps ∧ bs.length = torn := by simpa using h
      exact ⟨bs, by simp, rfl, by simp⟩
    · obtain ⟨rfl, rfl⟩ : [] = ps ∧ bs.length = torn := by simpa using h
      exact ⟨bs, by simp, rfl, by simp⟩
    · set len := leNat ((bs.drop 4).take 4) with hlen
      revert h
      cases hs : f.scanFrom n (o + (headerLen + len)) (bs.drop (headerLen + len)) with
      | error e => simp
      | ok q =>
        rintro h
        obtain ⟨rfl, rfl⟩ : (bs.drop headerLen).take len :: q.1 = ps ∧ q.2 = torn := by simpa using h
        obtain ⟨tail, ht, htl, hleg⟩ := ih _ _ _ _ (by rw [List.length_drop]; simp only [headerLen]; omega) hs
        have hplen : ((bs.drop headerLen).take len).length = len := by
          rw [List.length_take, List.length_drop]; omega
        refine ⟨tail, ?_, htl, ?_⟩
        · rw [frames_cons, List.append_assoc, ← ht]
          have e1 : leBytes 4 f.magic = bs.take 4 := by
            have h4 : (bs.take 4).length = 4 := by rw [List.length_take]; simp only [headerLen] at h1; omega
            rw [← not_not.mp h2]
            have := leBytes_leNat (bs.take 4)
            rwa [h4] at this
          have e2 : leBytes 4 len = (bs.drop 4).take 4 := by
            have h4 : ((bs.drop 4).take 4).length = 4 := by
              rw [List.length_take, List.length_drop]; simp only [headerLen] at h1; omega
            have := leBytes_leNat ((bs.drop 4).take 4)
            rwa [h4] at this
          have e3 : leBytes 4 (f.check ((bs.drop headerLen).take len)).toNat = (bs.drop 8).take 4 := by
            have h4 : ((bs.drop 8).take 4).length = 4 := by
              rw [List.length_take, List.length_drop]; simp only [headerLen] at h1; omega
            rw [not_not.mp h5]
            have := leBytes_leNat ((bs.drop 8).take 4)
            rwa [h4] at this
          rw [frame, hplen, e1, e2, e3]
          have s1 : bs.drop 4 = (bs.drop 4).take 4 ++ bs.drop 8 := by
            have := (List.take_append_drop 4 (bs.drop 4)).symm
            rwa [List.drop_drop] at this
          have s2 : bs.drop 8 = (bs.drop 8).take 4 ++ bs.drop headerLen := by
            have := (List.take_append_drop 4 (bs.drop 8)).symm
            rwa [List.drop_drop] at this
          have s3 : bs.drop headerLen = (bs.drop headerLen).take len ++ bs.drop (headerLen + len) := by
            have := (List.take_append_drop len (bs.drop headerLen)).symm
            rwa [List.drop_drop] at this
          simp only [List.append_assoc]
          rw [← s3, ← s2, ← s1, List.take_append_drop]
        · intro p hp
          rcases List.mem_cons.mp hp with rfl | hp
          · exact ⟨by rw [hplen]; omega, by rw [hplen]; omega⟩
          · exact hleg p hp

theorem scan_split {bs : Bytes} {ps : List Bytes} {torn : ℕ} (h : f.scan bs = .ok (ps, torn)) :
    ∃ tail, bs = f.frames ps ++ tail ∧ tail.length = torn ∧ ∀ p ∈ ps, f.Legal p :=
  f.scanFrom_split _ 0 bs ps torn le_rfl h

/-- bytes that are taken for the torn tail of the last write -/
def Torn (bs : Bytes) : Prop :=
  bs.length < headerLen ∨ leNat (bs.take 4) = f.magic ∧ leNat ((bs.drop 4).take 4) ≤ f.maxLen ∧
    bs.length < headerLen + leNat ((bs.drop 4).take 4)

/-- **A torn tail is all that a scan may discard.** -/
theorem scan_torn_iff (bs : Bytes) (n : ℕ) : f.scan bs = .ok ([], n) ↔ f.Torn bs ∧ n = bs.length := by
  unfold scan Torn
  cases hl : bs.length with
  | zero => simp [scanFrom, eq_comm]
  | succ m =>
    rw [scanFrom, if_neg (by omega), hl]
    by_cases hheader : m + 1 < headerLen
    · simp [hheader, eq_comm]
    rw [if_neg hheader]
    by_cases hmagic : leNat (bs.take 4) = f.magic
    swap
    · simp [hheader, hmagic]
    rw [if_neg (not_not.mpr hmagic)]
    by_cases hlen : leNat ((bs.drop 4).take 4) ≤ f.maxLen
    swap
    · simp [hheader, not_le.mp hlen, hlen]
    rw [if_neg (not_lt.mpr hlen)]
    by_cases hshort : m + 1 < headerLen + leNat ((bs.drop 4).take 4)
    · simp [hmagic, hlen, hshort, eq_comm]
    rw [if_neg hshort]
    -- what is long enough is read as a frame, or refused
    simp only [hheader, hshort, and_false, or_false, false_and, iff_false]
    split_ifs
    · simp
    · simp
    · split <;> simp

/-- what a scan returns is the frames in front of a torn tail -/
theorem scan_cut {bs : Bytes} {ps : List Bytes} {torn : ℕ} (h : f.scan bs = .ok (ps, torn)) :
    ∃ tail, bs = f.frames ps ++ tail ∧ tail.length = torn ∧ (∀ p ∈ ps, f.Legal p) ∧ f.Torn tail := by
  obtain ⟨tail, rfl, hlen, hlegal⟩ := f.scan_split h
  obtain ⟨qs, n, htail, hr⟩ := (f.scan_frames_ok ps hlegal tail _).mp h
  obtain ⟨hqs, rfl⟩ := Prod.mk.inj hr
  rw [List.self_eq_append_right] at hqs
  rw [hqs] at htail
  exact ⟨tail, rfl, hlen, hlegal, ((f.scan_torn_iff tail torn).mp htail).1⟩

/-- there is one way to cut a log into frames and a torn tail -/
theorem scan_of_cut {ps : List Bytes} (hps : ∀ p ∈ ps, f.Legal p) {tail : Bytes} (ht : f.Torn tail) :
    f.scan (f.frames ps ++ tail) = .ok (ps, tail.length) :=
  (f.scan_frames_ok ps hps tail _).mpr ⟨[], tail.length, (f.scan_torn_iff tail _).mpr ⟨ht, rfl⟩, by simp⟩

end FrameFormat

end FaultContainment.Lib
