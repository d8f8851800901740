import Mathlib.Data.Rat.Floor
import Mathlib.Algebra.Order.Field.Power
import Mathlib.Data.Nat.Digits

/-!
# The vote weight of staked tokens (staking/keeper/weight.go)

`calculateWeight` (weight.go:16-27) turns a block time into a vote weight. It takes the whole
weeks since `blockTimestampEpoch` in int64 arithmetic (the subtraction wraps, the division
truncates toward zero), divides them by 52 in float64 (IEEE 754 round to nearest, ties to an
even significand of 53 bits), prints the quotient with `%.18f` (strconv's fixed format: a sign,
the integer digits, a point and 18 digits, rounded half to even), reads the text back with
`sdk.NewDecFromStr` and multiplies the tokens by it. `sdk.Dec` is outside src/: its precision is
the constant `precision`, and its parser and product are the fields of `DecLib`.

The model reads Go's arithmetic exactly over ℤ and ℚ. Each rounding step is monotone, so the
weight never decreases with time as long as the subtraction does not wrap (`weight_mono`); the
text handed to the parser is a well-formed decimal that reads back as the rounded quotient
(`readFixed_formatFloatFixed`), so a parser that reads such decimals never fails
(`calculateWeight_of_reads`). The truncating division gives the weeks on both sides of the
epoch the same count (`calculateWeight_flat_at_epoch`), and block times more than 2^63 seconds
before the epoch wrap to positive week counts (`weightRate_wraps`).
-/

namespace Faxchain.Staking

/-! ### Go's int64 arithmetic -/

/-- `math.MinInt64`. -/
def minInt64 : ℤ := -9223372036854775808

/-- `math.MaxInt64`. -/
def maxInt64 : ℤ := 9223372036854775807

/-- The int64 that a Go int64 operation with exact result `x` yields (two's-complement wrap). -/
def wrapInt64 (x : ℤ) : ℤ := (x + 9223372036854775808) % 18446744073709551616 - 9223372036854775808

theorem wrapInt64_of_mem {x : ℤ} (h₁ : minInt64 ≤ x) (h₂ : x ≤ maxInt64) : wrapInt64 x = x := by
  unfold wrapInt64 minInt64 maxInt64 at *; omega

/-- `blockTimestampEpoch` (weight.go:11): UTC+8 2021-07-05 07:05:02. -/
def blockTimestampEpoch : ℤ := 1625439902

/-- `secondsPerWeek` (weight.go:12). -/
def secondsPerWeek : ℤ := 60 * 60 * 24 * 7

/-- `nowWeek := (nowTime - blockTimestampEpoch) / secondsPerWeek` (weight.go:17). -/
def nowWeek (nowTime : ℤ) : ℤ := (wrapInt64 (nowTime - blockTimestampEpoch)).tdiv secondsPerWeek

theorem tdiv_secondsPerWeek (a : ℤ) :
    a.tdiv secondsPerWeek = if 0 ≤ a then a / 604800 else -((-a) / 604800) := by
  split
  · exact Int.tdiv_eq_ediv ‹_› (by decide)
  · rw [← Int.tdiv_eq_ediv (by omega) (by decide), Int.neg_tdiv, neg_neg]; rfl

theorem nowWeek_bound (nowTime : ℤ) : -2 ^ 44 < nowWeek nowTime ∧ nowWeek nowTime < 2 ^ 44 := by
  unfold nowWeek wrapInt64
  rw [tdiv_secondsPerWeek]
  split <;> omega

/-! ### Rounding half to even -/

/-- The integer nearest `x`, the even one of two at equal distance. -/
def roundHalfEven (x : ℚ) : ℤ :=
  let k := ⌊x⌋
  if x - k < 1 / 2 then k else if 1 / 2 < x - k then k + 1 else k + k % 2

theorem roundHalfEven_bounds (x : ℚ) : ⌊x⌋ ≤ roundHalfEven x ∧ roundHalfEven x ≤ ⌊x⌋ + 1 := by
  unfold roundHalfEven; dsimp only; split_ifs <;> omega

@[simp] theorem roundHalfEven_intCast (k : ℤ) : roundHalfEven k = k := by
  simp [roundHalfEven]

@[simp] theorem roundHalfEven_zero : roundHalfEven 0 = 0 := by
  simpa using roundHalfEven_intCast 0

theorem roundHalfEven_mono {x y : ℚ} (h : x ≤ y) : roundHalfEven x ≤ roundHalfEven y := by
  rcases (Int.floor_mono h).lt_or_eq with hk | hk
  · have := roundHalfEven_bounds x; have := roundHalfEven_bounds y; omega
  -- the same floor: compare the fractional parts with `1 / 2`
  have hab : x - ⌊y⌋ ≤ y - ⌊y⌋ := sub_le_sub_right h _
  have h2 := Int.emod_nonneg ⌊y⌋ two_ne_zero
  unfold roundHalfEven; dsimp only; rw [hk]
  by_cases hb : y - ⌊y⌋ < 1 / 2
  · rw [if_pos (hab.trans_lt hb), if_pos hb]
  by_cases hb' : 1 / 2 < y - ⌊y⌋
  · rw [if_neg hb, if_pos hb']; split_ifs <;> omega
  have hb2 : y - ⌊y⌋ = 1 / 2 := le_antisymm (not_lt.mp hb') (not_lt.mp hb)
  rw [if_neg hb, if_neg hb', if_neg (not_lt.mpr (hab.trans_eq hb2))]
  split_ifs <;> omega

theorem monotone_bySign {α : Type*} [OrderedAddCommGroup α] {g : ℚ → α}
    (hg : ∀ x y, 0 ≤ x → x ≤ y → g x ≤ g y) (h0 : g 0 = 0) :
    Monotone fun x => if x < 0 then -g (-x) else g x := by
  intro x y h
  dsimp only
  split_ifs with hx hy hy
  · exact neg_le_neg (hg _ _ (by linarith) (by linarith))
  · exact (neg_nonpos.mpr (h0 ▸ hg 0 _ le_rfl (by linarith))).trans (h0 ▸ hg 0 _ le_rfl (by linarith))
  · linarith
  · exact hg _ _ (by linarith) h

/-! ### float64 division -/

/-- The number of binary digits of `n`, looked up within `fuel` halvings. -/
def bitLength : ℕ → ℕ → ℕ
  | 0, _ => 0
  | fuel + 1, n => if n = 0 then 0 else bitLength fuel (n / 2) + 1

@[simp] theorem bitLength_zero (fuel : ℕ) : bitLength fuel 0 = 0 := by
  cases fuel <;> rfl

theorem bitLength_spec {fuel n : ℕ} (h : n ≤ fuel) :
    n < 2 ^ bitLength fuel n ∧ (0 < n → 2 ^ bitLength fuel n ≤ 2 * n) := by
  induction fuel generalizing n with
  | zero => obtain rfl : n = 0 := by omega
            simp [bitLength]
  | succ fuel ih =>
    by_cases hn : n = 0
    · subst hn; simp [bitLength]
    obtain ⟨h₁, h₂⟩ := ih (n := n / 2) (by omega)
    simp only [bitLength, hn, if_false, pow_succ]
    refine ⟨by omega, fun _ => ?_⟩
    rcases Nat.eq_zero_or_pos (n / 2) with h0 | h0
    · rw [h0, bitLength_zero]; omega
    · have := h₂ h0; omega

/-- `⌊log₂ x⌋` of a positive rational, from the bit lengths of its numerator and denominator. -/
def log2Floor (x : ℚ) : ℤ :=
  let k : ℤ := (bitLength x.num.natAbs x.num.natAbs : ℤ) - bitLength x.den x.den
  if (2 : ℚ) ^ k ≤ x then k else k - 1

theorem log2Floor_spec {x : ℚ} (hx : 0 < x) :
    (2 : ℚ) ^ log2Floor x ≤ x ∧ x < 2 ^ (log2Floor x + 1) := by
  set a := x.num.natAbs
  set b := x.den
  have ha : 0 < a := Int.natAbs_pos.mpr (Rat.num_pos.mpr hx).ne'
  have hxab : x = (a : ℚ) / b := by
    rw [Nat.cast_natAbs, Int.cast_abs, abs_of_pos (by exact_mod_cast Rat.num_pos.mpr hx),
      Rat.num_div_den]
  obtain ⟨ha₁, ha₂⟩ := bitLength_spec (le_refl a)
  obtain ⟨hb₁, hb₂⟩ := bitLength_spec (le_refl b)
  set la := bitLength a a
  set lb := bitLength b b
  -- `2 ^ (k - 1) < a / b < 2 ^ (k + 1)` for `k = la - lb`, cross-multiplied in ℕ
  have hA : a * 2 ^ lb < 2 ^ la * 2 * b :=
    calc a * 2 ^ lb < 2 ^ la * 2 ^ lb := Nat.mul_lt_mul_of_pos_right ha₁ (by positivity)
      _ ≤ 2 ^ la * 2 * b := by rw [mul_assoc]; exact Nat.mul_le_mul_left _ (hb₂ x.den_pos)
  have hB : 2 ^ la * b < a * (2 ^ lb * 2) :=
    calc 2 ^ la * b < 2 ^ la * 2 ^ lb := Nat.mul_lt_mul_of_pos_left hb₁ (by positivity)
      _ ≤ 2 * a * 2 ^ lb := Nat.mul_le_mul_right _ (ha₂ ha)
      _ = a * (2 ^ lb * 2) := by ring
  have two : (2 : ℚ) ≠ 0 := two_ne_zero
  have hb : (0 : ℚ) < b := by exact_mod_cast x.den_pos
  have hlo : (2 : ℚ) ^ ((la : ℤ) - lb - 1) < x := by
    rw [show (2 : ℚ) ^ ((la : ℤ) - lb - 1) = 2 ^ la / (2 ^ lb * 2) by
      rw [zpow_sub_one₀ two, zpow_sub₀ two, zpow_natCast, zpow_natCast]; ring,
      hxab, div_lt_div_iff₀ (by positivity) hb]
    exact_mod_cast hB
  have hhi : x < 2 ^ ((la : ℤ) - lb + 1) := by
    rw [show (2 : ℚ) ^ ((la : ℤ) - lb + 1) = 2 ^ la * 2 / 2 ^ lb by
      rw [zpow_add_one₀ two, zpow_sub₀ two, zpow_natCast, zpow_natCast]; ring,
      hxab, div_lt_div_iff₀ hb (by positivity)]
    exact_mod_cast hA
  unfold log2Floor
  dsimp only
  split_ifs with h
  · exact ⟨h, hhi⟩
  · exact ⟨hlo.le, by rw [sub_add_cancel]; exact not_le.mp h⟩

/-- The float64 nearest a nonnegative `q`: the significand `q / 2 ^ e` rounded half to even, with
`e` placing it in `[2^52, 2^53)`. -/
def roundFloat64Pos (q : ℚ) : ℚ :=
  let e := log2Floor q - 52
  roundHalfEven (q / 2 ^ e) * 2 ^ e

/-- The float64 nearest `q` (IEEE 754 round to nearest, ties to an even significand of 53 bits),
for `q` zero or of the normal range, the only ones weight.go reaches (`nowWeek_bound`). -/
def roundFloat64 (q : ℚ) : ℚ := if q < 0 then -roundFloat64Pos (-q) else roundFloat64Pos q

@[simp] theorem roundFloat64Pos_zero : roundFloat64Pos 0 = 0 := by simp [roundFloat64Pos]

theorem roundFloat64Pos_bounds {q : ℚ} (hq : 0 < q) :
    (2 : ℚ) ^ log2Floor q ≤ roundFloat64Pos q ∧ roundFloat64Pos q ≤ 2 ^ (log2Floor q + 1) := by
  obtain ⟨h₁, h₂⟩ := log2Floor_spec hq
  set L := log2Floor q
  have two : (2 : ℚ) ≠ 0 := two_ne_zero
  have he : (0 : ℚ) < 2 ^ (L - 52) := zpow_pos two_pos _
  have hL : (2 : ℚ) ^ L = ((2 ^ 52 : ℤ) : ℚ) * 2 ^ (L - 52) := by
    rw [Int.cast_pow, Int.cast_two, ← zpow_natCast, ← zpow_add₀ two]; congr 1; omega
  have hL' : (2 : ℚ) ^ (L + 1) = ((2 ^ 53 : ℤ) : ℚ) * 2 ^ (L - 52) := by
    rw [Int.cast_pow, Int.cast_two, ← zpow_natCast, ← zpow_add₀ two]; congr 1; omega
  -- the significand lies in `[2^52, 2^53)`, so it rounds into `[2^52, 2^53]`
  have hf₁ := Int.le_floor.mpr ((le_div_iff₀ he).mpr (hL ▸ h₁))
  have hf₂ := Int.floor_lt.mpr ((div_lt_iff₀ he).mpr (hL' ▸ h₂))
  have hm := roundHalfEven_bounds (q / 2 ^ (L - 52))
  have hm₁ : ((2 ^ 52 : ℤ) : ℚ) ≤ roundHalfEven (q / 2 ^ (L - 52)) :=
    Int.cast_le.mpr (hf₁.trans hm.1)
  have hm₂ : (roundHalfEven (q / 2 ^ (L - 52)) : ℚ) ≤ ((2 ^ 53 : ℤ) : ℚ) :=
    Int.cast_le.mpr (by omega)
  unfold roundFloat64Pos
  rw [hL, hL']
  exact ⟨mul_le_mul_of_nonneg_right hm₁ he.le, mul_le_mul_of_nonneg_right hm₂ he.le⟩

theorem roundFloat64Pos_nonneg {q : ℚ} (hq : 0 ≤ q) : 0 ≤ roundFloat64Pos q := by
  rcases hq.lt_or_eq with hq | rfl
  · exact (zpow_pos two_pos _).le.trans (roundFloat64Pos_bounds hq).1
  · simp

theorem roundFloat64Pos_mono {x y : ℚ} (hx : 0 ≤ x) (h : x ≤ y) :
    roundFloat64Pos x ≤ roundFloat64Pos y := by
  rcases hx.lt_or_eq with hx | rfl
  swap
  · simpa using roundFloat64Pos_nonneg (hx.trans h)
  have hy := hx.trans_le h
  obtain ⟨hx₁, hx₂⟩ := log2Floor_spec hx
  obtain ⟨hy₁, hy₂⟩ := log2Floor_spec hy
  have hL : log2Floor x ≤ log2Floor y := by
    have := (zpow_lt_zpow_iff_right₀ one_lt_two).mp (hx₁.trans_lt (h.trans_lt hy₂)); omega
  rcases hL.lt_or_eq with hL | hL
  · -- a higher binade: the rounded values are separated by `2 ^ ⌊log₂ y⌋`
    calc roundFloat64Pos x ≤ 2 ^ (log2Floor x + 1) := (roundFloat64Pos_bounds hx).2
      _ ≤ 2 ^ log2Floor y := zpow_le_zpow_right₀ one_le_two (by omega)
      _ ≤ roundFloat64Pos y := (roundFloat64Pos_bounds hy).1
  · -- the same binade: the significands round monotonically
    unfold roundFloat64Pos
    rw [hL]
    have he : (0 : ℚ) < 2 ^ (log2Floor y - 52) := zpow_pos two_pos _
    exact mul_le_mul_of_nonneg_right
      (by exact_mod_cast roundHalfEven_mono (div_le_div_of_nonneg_right h he.le)) he.le

theorem roundFloat64_mono : Monotone roundFloat64 :=
  monotone_bySign (fun _ _ hx h => roundFloat64Pos_mono hx h) roundFloat64Pos_zero

theorem roundFloat64Pos_natCast {n : ℕ} (h : n < 2 ^ 53) : roundFloat64Pos n = n := by
  rcases Nat.eq_zero_or_pos n with rfl | hn
  · simp
  obtain ⟨h₁, -⟩ := log2Floor_spec (by exact_mod_cast hn : (0 : ℚ) < n)
  have hL : log2Floor n < 53 := by
    refine (zpow_lt_zpow_iff_right₀ one_lt_two).mp (h₁.trans_lt ?_)
    rw [zpow_ofNat]; exact_mod_cast h
  obtain ⟨j, hj⟩ : ∃ j : ℕ, log2Floor n - 52 = -j := ⟨(52 - log2Floor n).toNat, by omega⟩
  have hz : (n : ℚ) / 2 ^ (log2Floor (n : ℚ) - 52) = ((n * 2 ^ j : ℤ) : ℚ) := by
    rw [hj, zpow_neg, zpow_natCast, div_inv_eq_mul]; push_cast; ring
  unfold roundFloat64Pos
  dsimp only
  rw [hz, roundHalfEven_intCast, ← hz, div_mul_cancel₀ _ (zpow_ne_zero _ two_ne_zero)]

theorem roundFloat64_intCast {n : ℤ} (h : n.natAbs < 2 ^ 53) : roundFloat64 n = n := by
  unfold roundFloat64
  split_ifs with hn
  · have : -(n : ℚ) = (n.natAbs : ℚ) := by
      rw [Nat.cast_natAbs, Int.cast_abs, abs_of_neg hn]
    rw [this, roundFloat64Pos_natCast h, ← this, neg_neg]
  · have : (n : ℚ) = (n.natAbs : ℚ) := by
      rw [Nat.cast_natAbs, Int.cast_abs, abs_of_nonneg (not_lt.mp hn)]
    rw [this, roundFloat64Pos_natCast h]

/-! ### The rate -/

/-- `weeksPerYear` (weight.go:13), a float64 constant. -/
def weeksPerYear : ℚ := 52

/-- `rate := float64(nowWeek) / weeksPerYear` (weight.go:18-19); `weight := rate`. -/
def weightRate (nowTime : ℤ) : ℚ := roundFloat64 (roundFloat64 (nowWeek nowTime) / weeksPerYear)

theorem weightRate_eq (nowTime : ℤ) :
    weightRate nowTime = roundFloat64 (nowWeek nowTime / weeksPerYear) := by
  have := nowWeek_bound nowTime
  rw [weightRate, roundFloat64_intCast (by omega)]

theorem nowWeek_mono {t₁ t₂ : ℤ} (h₁ : minInt64 + blockTimestampEpoch ≤ t₁) (h : t₁ ≤ t₂)
    (h₂ : t₂ ≤ maxInt64) : nowWeek t₁ ≤ nowWeek t₂ := by
  have he : (0 : ℤ) ≤ blockTimestampEpoch := by decide
  unfold nowWeek
  rw [wrapInt64_of_mem (by omega) (by omega), wrapInt64_of_mem (by omega) (by omega),
    tdiv_secondsPerWeek, tdiv_secondsPerWeek]
  split_ifs <;> omega

/-! ### `%.18f` and `sdk.NewDecFromStr` -/

/-- `sdk.Precision`: an `sdk.Dec` holds its value times `10 ^ precision`. -/
def precision : ℕ := 18

/-- `strconv.FormatFloat(x, 'f', p, 64)`, which `fmt.Sprintf` prints (weight.go:20-22): the sign,
then `|x|` rounded half to even at `p` places. -/
def formatFloatFixed (p : ℕ) (x : ℚ) : String :=
  let n := (roundHalfEven (|x| * 10 ^ p)).toNat
  let frac := Nat.toDigits 10 (n % 10 ^ p)
  ⟨(if x < 0 then ['-'] else []) ++ Nat.toDigits 10 (n / 10 ^ p) ++
    if p = 0 then [] else '.' :: (List.replicate (p - frac.length) '0' ++ frac)⟩

/-- The value, scaled by `10 ^ p`, of `x` rounded half to even at `p` places, with the sign of
`x`: what `formatFloatFixed p x` denotes (`readFixed_formatFloatFixed`). -/
def fixedValue (p : ℕ) (x : ℚ) : ℤ :=
  if x < 0 then -roundHalfEven (-x * 10 ^ p) else roundHalfEven (x * 10 ^ p)

theorem fixedValue_mono (p : ℕ) : Monotone (fixedValue p) :=
  monotone_bySign (fun _ _ _ h => roundHalfEven_mono (mul_le_mul_of_nonneg_right h (by positivity)))
    (by simp)

/-- The decimal digits `cs` as a number. -/
def digitsValue (cs : List Char) : ℕ := cs.foldl (fun n c => 10 * n + (c.toNat - '0'.toNat)) 0

/-- The value, scaled by `10 ^ p`, of a decimal with `p` places: an optional minus sign, one or
more digits and, for `0 < p`, a point and `p` digits. -/
def readFixed (p : ℕ) (s : String) : Option ℤ :=
  let neg := s.data.head? = some '-'
  let cs := if neg then s.data.tail else s.data
  let int := cs.takeWhile (· ≠ '.')
  let frac := (cs.dropWhile (· ≠ '.')).drop 1
  if int ≠ [] ∧ (int ++ frac).all Char.isDigit ∧ frac.length = p ∧
      cs = int ++ (if p = 0 then [] else '.' :: frac) then
    some ((if neg then -1 else 1) * digitsValue (int ++ frac))
  else none

theorem foldl_digit (acc : ℕ) (cs : List Char) :
    cs.foldl (fun n c => 10 * n + (c.toNat - '0'.toNat)) acc =
      acc * 10 ^ cs.length + digitsValue cs := by
  induction cs generalizing acc with
  | nil => simp [digitsValue]
  | cons c cs ih =>
    have h : digitsValue (c :: cs) =
        (10 * 0 + (c.toNat - '0'.toNat)) * 10 ^ cs.length + digitsValue cs := ih _
    rw [List.foldl_cons, ih, h, List.length_cons, pow_succ]; ring

theorem digitsValue_append (l₁ l₂ : List Char) :
    digitsValue (l₁ ++ l₂) = digitsValue l₁ * 10 ^ l₂.length + digitsValue l₂ := by
  rw [digitsValue, List.foldl_append, foldl_digit]; rfl

theorem digitsValue_replicate_zero (k : ℕ) : digitsValue (List.replicate k '0') = 0 := by
  induction k with
  | zero => rfl
  | succ k ih => simpa [digitsValue, List.replicate_succ] using ih

theorem digitChar_spec : ∀ d < 10, (Nat.digitChar d).toNat - '0'.toNat = d ∧
    (Nat.digitChar d).isDigit = true := by decide

theorem toDigitsCore_spec {fuel n : ℕ} (h : n < fuel) (ds : List Char) :
    ∃ l, Nat.toDigitsCore 10 fuel n ds = l ++ ds ∧ l ≠ [] ∧ l.all Char.isDigit ∧
      digitsValue l = n := by
  induction fuel generalizing n ds with
  | zero => omega
  | succ fuel ih =>
    obtain ⟨hv, hd⟩ := digitChar_spec (n % 10) (Nat.mod_lt _ (by decide))
    simp only [Nat.toDigitsCore]
    split
    · refine ⟨[Nat.digitChar (n % 10)], rfl, by simp, by simp [hd], ?_⟩
      simp only [digitsValue, List.foldl_cons, List.foldl_nil, hv]; omega
    · obtain ⟨l, hl, hl0, hld, hlv⟩ := ih (n := n / 10) (by omega) (Nat.digitChar (n % 10) :: ds)
      refine ⟨l ++ [Nat.digitChar (n % 10)], by simp [hl], by simp, by simp [hld, hd], ?_⟩
      rw [digitsValue_append, hlv]
      simp only [digitsValue, List.foldl_cons, List.foldl_nil, hv, List.length_singleton]
      omega

theorem toDigits_spec (n : ℕ) :
    Nat.toDigits 10 n ≠ [] ∧ (Nat.toDigits 10 n).all Char.isDigit ∧
      digitsValue (Nat.toDigits 10 n) = n := by
  obtain ⟨l, hl, hl0, hld, hlv⟩ := toDigitsCore_spec (Nat.lt_succ_self n) []
  rw [List.append_nil] at hl
  simp only [Nat.toDigits, hl]
  exact ⟨hl0, hld, hlv⟩

theorem readFixed_digits (p : ℕ) (neg : Prop) [Decidable neg] {D frac : List Char} (hD0 : D ≠ [])
    (hd : (D ++ frac).all Char.isDigit) (hl : frac.length = p) :
    readFixed p ⟨(if neg then ['-'] else []) ++ D ++ if p = 0 then [] else '.' :: frac⟩ =
      some ((if neg then -1 else 1) * (digitsValue (D ++ frac) : ℤ)) := by
  have hdig : ∀ c ∈ D, c.isDigit = true := fun c hc =>
    List.all_eq_true.mp hd c (List.mem_append_left _ hc)
  have hdot : ∀ c ∈ D, decide (c ≠ '.') = true := fun c hc => by
    have := hdig c hc; simp only [decide_eq_true_eq]; rintro rfl; exact absurd this (by decide)
  set tail : List Char := if p = 0 then [] else '.' :: frac with htail
  have htake : (D ++ tail).takeWhile (· ≠ '.') = D := by
    rw [List.takeWhile_append_of_pos hdot, htail]; split_ifs <;> simp
  have hdrop : ((D ++ tail).dropWhile (· ≠ '.')).drop 1 = frac := by
    rw [List.dropWhile_append_of_pos hdot, htail]
    split_ifs with hp
    · subst hp; simpa using hl
    · simp
  have hhead : (D ++ tail).head? ≠ some '-' := by
    obtain ⟨c, D', rfl⟩ := List.exists_cons_of_ne_nil hD0
    have := hdig c (List.mem_cons_self _ _)
    simp only [List.cons_append, List.head?_cons, ne_eq, Option.some.injEq]
    rintro rfl; exact absurd this (by decide)
  by_cases hneg : neg
  · rw [if_pos hneg, if_pos hneg]
    show readFixed p ⟨'-' :: (D ++ tail)⟩ = _
    simp only [readFixed, List.head?_cons, List.tail_cons, if_true]
    rw [htake, hdrop, if_pos ⟨hD0, hd, hl, rfl⟩]
  · rw [if_neg hneg, if_neg hneg]
    show readFixed p ⟨D ++ tail⟩ = _
    simp only [readFixed, hhead, if_false]
    rw [htake, hdrop, if_pos ⟨hD0, hd, hl, rfl⟩]

theorem roundHalfEven_nonneg {x : ℚ} (hx : 0 ≤ x) : 0 ≤ roundHalfEven x :=
  (Int.floor_nonneg.mpr hx).trans (roundHalfEven_bounds x).1

/-- `formatFloatFixed p x` reads back as `x` rounded half to even at `p` places. -/
theorem readFixed_formatFloatFixed (p : ℕ) (x : ℚ) :
    readFixed p (formatFloatFixed p x) = some (fixedValue p x) := by
  unfold formatFloatFixed
  dsimp only
  set n := (roundHalfEven (|x| * 10 ^ p)).toNat with hn
  obtain ⟨hD0, hDd, hDv⟩ := toDigits_spec (n / 10 ^ p)
  obtain ⟨-, hFd, hFv⟩ := toDigits_spec (n % 10 ^ p)
  set F := Nat.toDigits 10 (n % 10 ^ p)
  -- the `p` places after the point
  set frac : List Char := if p = 0 then [] else List.replicate (p - F.length) '0' ++ F with hfrac
  have hF : p ≠ 0 → F.length ≤ p := fun hp => Nat.toDigitsCore_length 10 (by decide) _ _ p
    (Nat.mod_lt _ (by positivity)) (Nat.pos_of_ne_zero hp)
  have htail : (if p = 0 then [] else '.' :: (List.replicate (p - F.length) '0' ++ F)) =
      if p = 0 then [] else '.' :: frac := by
    rw [hfrac]; split_ifs <;> rfl
  have hl : frac.length = p := by
    rw [hfrac]; split_ifs with hp
    · exact hp.symm
    · simp only [List.length_append, List.length_replicate]; have := hF hp; omega
  have hd : (Nat.toDigits 10 (n / 10 ^ p) ++ frac).all Char.isDigit := by
    rw [List.all_append, hDd, Bool.true_and, hfrac]
    split_ifs
    · rfl
    · simp [List.all_append, hFd]
  have hv : digitsValue (Nat.toDigits 10 (n / 10 ^ p) ++ frac) = n := by
    rw [hfrac]; split_ifs with hp
    · subst hp; simpa using hDv
    · rw [digitsValue_append, digitsValue_append, digitsValue_replicate_zero, hDv, hFv,
        List.length_append, List.length_replicate, Nat.sub_add_cancel (hF hp), zero_mul, zero_add,
        Nat.div_add_mod']
  rw [htail, readFixed_digits p _ hD0 hd hl, hv]
  have h0 : 0 ≤ roundHalfEven (|x| * 10 ^ p) := roundHalfEven_nonneg (by positivity)
  unfold fixedValue
  split_ifs with hx
  · rw [hn, Int.toNat_of_nonneg h0, abs_of_neg hx, neg_one_mul]
  · rw [hn, Int.toNat_of_nonneg h0, abs_of_nonneg (not_lt.mp hx), one_mul]

theorem fixedValue_intCast (p : ℕ) (k : ℤ) : fixedValue p k = k * 10 ^ p := by
  unfold fixedValue
  split_ifs
  · rw [show -(k : ℚ) * 10 ^ p = ((-k * 10 ^ p : ℤ) : ℚ) by push_cast; ring, roundHalfEven_intCast]
    ring
  · rw [show (k : ℚ) * 10 ^ p = ((k * 10 ^ p : ℤ) : ℚ) by push_cast; ring, roundHalfEven_intCast]

/-! ### The weight over time -/

theorem roundFloat64_pos {q : ℚ} (hq : 0 < q) : 0 < roundFloat64 q := by
  rw [roundFloat64, if_neg (not_lt.mpr hq.le)]
  exact (zpow_pos two_pos _).trans_le (roundFloat64Pos_bounds hq).1

theorem roundFloat64_neg {q : ℚ} (hq : q < 0) : roundFloat64 q < 0 := by
  rw [roundFloat64, if_pos hq, neg_neg_iff_pos]
  exact (zpow_pos two_pos _).trans_le (roundFloat64Pos_bounds (neg_pos.mpr hq)).1

theorem weightRate_bound (nowTime : ℤ) :
    ((-2 ^ 44 : ℤ) : ℚ) ≤ weightRate nowTime ∧ weightRate nowTime ≤ ((2 ^ 44 : ℤ) : ℚ) := by
  obtain ⟨h₁, h₂⟩ := nowWeek_bound nowTime
  have h52 : (0 : ℚ) < weeksPerYear := by norm_num [weeksPerYear]
  rw [weightRate_eq, ← roundFloat64_intCast (n := -2 ^ 44) (by norm_num),
    ← roundFloat64_intCast (n := 2 ^ 44) (by norm_num)]
  refine ⟨roundFloat64_mono ?_, roundFloat64_mono ?_⟩
  · rw [le_div_iff₀ h52, weeksPerYear]; exact_mod_cast (by omega : (-2 ^ 44 : ℤ) * 52 ≤ nowWeek nowTime)
  · rw [div_le_iff₀ h52, weeksPerYear]; exact_mod_cast (by omega : nowWeek nowTime ≤ 2 ^ 44 * 52)

/-- Over the block times whose distance to the epoch does not wrap, the weight never decreases. -/
theorem weight_mono {t₁ t₂ : ℤ} (h₁ : minInt64 + blockTimestampEpoch ≤ t₁) (h : t₁ ≤ t₂)
    (h₂ : t₂ ≤ maxInt64) :
    fixedValue precision (weightRate t₁) ≤ fixedValue precision (weightRate t₂) := by
  rw [weightRate_eq, weightRate_eq]
  exact fixedValue_mono _ (roundFloat64_mono (div_le_div_of_nonneg_right
    (by exact_mod_cast nowWeek_mono h₁ h h₂) (by norm_num [weeksPerYear])))

/-- One week after the epoch weighs no more than two weeks after it. -/
theorem weight_mono_first_weeks :
    minInt64 + blockTimestampEpoch ≤ blockTimestampEpoch + secondsPerWeek ∧
      blockTimestampEpoch + secondsPerWeek ≤ blockTimestampEpoch + 2 * secondsPerWeek ∧
      blockTimestampEpoch + 2 * secondsPerWeek ≤ maxInt64 ∧
      fixedValue precision (weightRate (blockTimestampEpoch + secondsPerWeek)) ≤
        fixedValue precision (weightRate (blockTimestampEpoch + 2 * secondsPerWeek)) :=
  ⟨by decide, by decide, by decide, weight_mono (by decide) (by decide) (by decide)⟩

theorem weightRate_wraps {nowTime : ℤ} (h₁ : minInt64 ≤ nowTime)
    (h₂ : nowTime < minInt64 + blockTimestampEpoch) :
    weightRate (minInt64 + blockTimestampEpoch) < 0 ∧ 0 < weightRate nowTime := by
  have h52 : (0 : ℚ) < weeksPerYear := by norm_num [weeksPerYear]
  have hlo : nowWeek (minInt64 + blockTimestampEpoch) < 0 := by
    unfold nowWeek wrapInt64 minInt64; rw [tdiv_secondsPerWeek]; split_ifs <;> omega
  have hhi : 0 < nowWeek nowTime := by
    unfold minInt64 at h₁; unfold minInt64 blockTimestampEpoch at h₂
    unfold nowWeek wrapInt64 blockTimestampEpoch; rw [tdiv_secondsPerWeek]; split_ifs <;> omega
  rw [weightRate_eq, weightRate_eq]
  exact ⟨roundFloat64_neg (div_neg_of_neg_of_pos (by exact_mod_cast hlo) h52),
    roundFloat64_pos (div_pos (by exact_mod_cast hhi) h52)⟩

/-! ### `calculateWeight` -/

/-- What `calculateWeight` uses of `sdk.Dec`, whose code is outside src/; a `Dec` is its value
times `10 ^ precision`. -/
structure DecLib where
  /-- `sdk.NewDecFromStr`. -/
  newDecFromStr : String → Except String ℤ
  /-- `Dec.Mul`. -/
  mul : ℤ → ℤ → ℤ

/-- `calculateWeight` (weight.go:16-27): the shares (`nil` when the parse fails) and the parse
error. -/
def calculateWeight (lib : DecLib) (nowTime tokens : ℤ) : Option ℤ × Option String :=
  match lib.newDecFromStr (formatFloatFixed precision (weightRate nowTime)) with
  | .ok weightByDec => (some (lib.mul tokens weightByDec), none)
  | .error sdkErr => (none, some sdkErr)

/-- `SimulateWeight` (weight.go:29-31). -/
def simulateWeight (lib : DecLib) (nowTime tokens : ℤ) : Option ℤ × Option String :=
  calculateWeight lib nowTime tokens

/-- With a parser that reads decimals, `calculateWeight` never fails and multiplies the tokens by
the rate rounded at `precision` places. -/
theorem calculateWeight_of_reads {lib : DecLib}
    (hlib : ∀ s n, readFixed precision s = some n → n.natAbs < 2 ^ 255 →
      lib.newDecFromStr s = .ok n)
    (nowTime tokens : ℤ) :
    calculateWeight lib nowTime tokens =
      (some (lib.mul tokens (fixedValue precision (weightRate nowTime))), none) := by
  obtain ⟨hb₁, hb₂⟩ := weightRate_bound nowTime
  have h₁ := fixedValue_mono precision hb₁
  have h₂ := fixedValue_mono precision hb₂
  have hp : (10 : ℤ) ^ precision = 10 ^ 18 := rfl
  rw [fixedValue_intCast, hp] at h₁ h₂
  rw [calculateWeight, hlib _ _ (readFixed_formatFloatFixed _ _) (by omega)]

/-- A stand-in for `sdk.Dec`: its parser reads what `readFixed` reads, and its product rounds
half to even at `precision` places, as `Dec.Mul`'s `chopPrecisionAndRound` does. -/
def readingDecLib : DecLib where
  newDecFromStr s := match readFixed precision s with
    | some n => .ok n
    | none => .error "invalid decimal"
  mul a b := roundHalfEven ((a * b : ℚ) / 10 ^ precision)

set_option maxRecDepth 20000 in
/-- Two weeks after the epoch one token weighs `0.038461538461538464`: the float64 quotient
`2 / 52` printed at 18 places, where `2 / 52` itself rounds to `0.038461538461538462`. -/
theorem calculateWeight_two_weeks :
    (∀ s n, readFixed precision s = some n → n.natAbs < 2 ^ 255 →
      readingDecLib.newDecFromStr s = .ok n) ∧
    calculateWeight readingDecLib (blockTimestampEpoch + 2 * secondsPerWeek) (10 ^ 18) =
      (some (readingDecLib.mul (10 ^ 18)
        (fixedValue precision (weightRate (blockTimestampEpoch + 2 * secondsPerWeek)))), none) ∧
    fixedValue precision (weightRate (blockTimestampEpoch + 2 * secondsPerWeek)) =
      38461538461538464 :=
  have h : ∀ s n, readFixed precision s = some n → n.natAbs < 2 ^ 255 →
      readingDecLib.newDecFromStr s = .ok n := fun s n hs _ => by simp [readingDecLib, hs]
  ⟨h, calculateWeight_of_reads h _ _, by with_unfolding_all rfl⟩

theorem calculateWeight_flat_at_epoch (lib : DecLib) (tokens : ℤ) {nowTime : ℤ}
    (h₁ : blockTimestampEpoch - secondsPerWeek < nowTime)
    (h₂ : nowTime < blockTimestampEpoch + secondsPerWeek) :
    calculateWeight lib nowTime tokens = calculateWeight lib blockTimestampEpoch tokens := by
  have hw : nowWeek nowTime = nowWeek blockTimestampEpoch := by
    unfold secondsPerWeek blockTimestampEpoch at h₁ h₂
    unfold nowWeek
    rw [wrapInt64_of_mem (by unfold minInt64 blockTimestampEpoch; omega)
        (by unfold maxInt64 blockTimestampEpoch; omega),
      wrapInt64_of_mem (by decide) (by decide), tdiv_secondsPerWeek, tdiv_secondsPerWeek]
    unfold blockTimestampEpoch
    split_ifs <;> omega
  simp only [calculateWeight, weightRate, hw]

end Faxchain.Staking
