import Mathlib.Algebra.Order.Floor.Div
import Mathlib.Data.Nat.Log
import Mathlib.Tactic.Ring

/-! The quotient of two natural numbers as a double, rounded up to an integer.

A double has 53 bits, and none below 2^-1074. The exact quotient is rounded to the
nearest of these, of two the even one, and the ceiling is taken of the result. Where
53 bits are not enough the result can be less than the quotient.

`ceilQuotient_le_iff`: for every bound there is a greatest number, `reach`, whose quotient
does not come out above it. -/
namespace Library.Binary64

/-! ### Rounding to integers -/

/-- The integer nearest to `a / b`, of two the even one. -/
def roundHalfEven (a b : Nat) : Nat :=
  if 2 * (a % b) < b then a / b
  else if b < 2 * (a % b) then a / b + 1
  else a / b + a / b % 2

/-- The midpoint above an even number goes down to it. -/
theorem roundHalfEven_le_iff (a : Nat) {b : Nat} (hb : 0 < b) (c : Nat) :
    roundHalfEven a b ≤ c ↔ 2 * a + c % 2 ≤ (2 * c + 1) * b := by
  have ha : b * (a / b) + a % b = a := Nat.div_add_mod a b
  have hr : a % b < b := Nat.mod_lt a hb
  unfold roundHalfEven
  generalize a / b = q at ha ⊢
  generalize a % b = r at ha hr ⊢
  subst ha
  rcases Nat.lt_trichotomy c q with hlt | rfl | hlt
  · have hbound : (2 * c + 1) * b < 2 * (b * q) := by
      calc (2 * c + 1) * b < (2 * q) * b := Nat.mul_lt_mul_of_pos_right (by omega) hb
        _ = 2 * (b * q) := by ring
    refine iff_of_false ?_ (by omega)
    split
    · omega
    · split <;> omega
  · have hbound : (2 * c + 1) * b = 2 * (b * c) + b := by ring
    rw [hbound]
    split
    · exact iff_of_true le_rfl (by omega)
    · split <;> omega
  · have hbound : 2 * (b * q) + 3 * b ≤ (2 * c + 1) * b := by
      calc 2 * (b * q) + 3 * b = (2 * q + 3) * b := by ring
        _ ≤ (2 * c + 1) * b := Nat.mul_le_mul_right b (by omega)
    refine iff_of_true ?_ (by omega)
    split
    · omega
    · split <;> omega

/-! ### Rounding to doubles -/

/-- The doubles next to a quotient of at least `2 ^ p` and less than `2 ^ (p + 1)` are the
multiples of `2 ^ t / 2 ^ s`, of which one of the exponents is zero. -/
def grid (p : Nat) : Nat × Nat := (52 - p, p - 52)

/-- The least double is `2 ^ -1074`. -/
def leastExponent : Nat := 1074

/-- The same for a quotient, however small. -/
def places (n d : Nat) : Nat × Nat :=
  if d ≤ n then grid (n / d).log2 else (min (53 + ((d - 1) / n).log2) leastExponent, 0)

/-- The double nearest to `n / d`, as a multiple of `2 ^ t / 2 ^ s`. -/
def significand (n d : Nat) : Nat :=
  roundHalfEven (n * 2 ^ (places n d).1) (d * 2 ^ (places n d).2)

/-- The double nearest to `n / d`, rounded up. -/
def ceilQuotient (n d : Nat) : Nat :=
  (significand n d * 2 ^ (places n d).2) ⌈/⌉ 2 ^ (places n d).1

theorem grid_two_pow (p : Nat) : 2 ^ (grid p).1 * 2 ^ p = 2 ^ 52 * 2 ^ (grid p).2 := by
  rw [← Nat.pow_add, ← Nat.pow_add]
  congr 1
  show 52 - p + p = 52 + (p - 52)
  omega

theorem ceilQuotient_le_iff_significand (n d k : Nat) :
    ceilQuotient n d ≤ k ↔ significand n d * 2 ^ (places n d).2 ≤ k * 2 ^ (places n d).1 := by
  rw [ceilQuotient, ceilDiv_le_iff_le_mul (Nat.two_pow_pos _), Nat.mul_comm k]

theorem significand_le_iff (n : Nat) {d : Nat} (hd : 0 < d) (c : Nat) :
    significand n d ≤ c ↔
      2 * (n * 2 ^ (places n d).1) + c % 2 ≤ (2 * c + 1) * (d * 2 ^ (places n d).2) :=
  roundHalfEven_le_iff _ (Nat.mul_pos hd (Nat.two_pow_pos _)) c

/-- The exponent of a quotient of at least one. -/
theorem places_of_le {n d p : Nat} (hd : 0 < d) (hle : 2 ^ p * d ≤ n) (hlt : n < 2 ^ (p + 1) * d) :
    places n d = grid p := by
  have hn : d ≤ n := le_trans (Nat.le_mul_of_pos_left d (Nat.two_pow_pos p)) hle
  have hne : n / d ≠ 0 := Nat.pos_iff_ne_zero.mp (Nat.div_pos hn hd)
  have hlog : (n / d).log2 = p :=
    (Nat.log2_eq_iff hne).mpr ⟨(Nat.le_div_iff_mul_le hd).mpr hle, (Nat.div_lt_iff_lt_mul hd).mpr hlt⟩
  rw [places, if_pos hn, hlog]

/-- Every quotient of at least one has its exponent. -/
theorem exists_exponent {n d : Nat} (hd : 0 < d) (hn : d ≤ n) : ∃ p, 2 ^ p * d ≤ n ∧ n < 2 ^ (p + 1) * d := by
  have hne : n / d ≠ 0 := Nat.pos_iff_ne_zero.mp (Nat.div_pos hn hd)
  refine ⟨(n / d).log2, ?_, ?_⟩
  · exact (Nat.le_div_iff_mul_le hd).mp (Nat.log2_self_le hne)
  · exact (Nat.div_lt_iff_lt_mul hd).mp Nat.lt_log2_self

theorem places_of_lt {n d : Nat} (hn : n < d) : places n d = (min (53 + ((d - 1) / n).log2) leastExponent, 0) := by
  rw [places, if_neg (Nat.not_le.mpr hn)]

/-! ### Powers of two are exact -/

/-- A quotient less than one does not come out above it. -/
theorem ceilQuotient_le_one {n d : Nat} (hn : n < d) : ceilQuotient n d ≤ 1 := by
  have hd : 0 < d := by omega
  rw [ceilQuotient_le_iff_significand, places_of_lt hn, Nat.pow_zero, Nat.mul_one, Nat.one_mul,
    significand_le_iff n hd, places_of_lt hn, Nat.pow_zero, Nat.mul_one]
  generalize 2 ^ min (53 + ((d - 1) / n).log2) leastExponent = u
  have hstep : (n + 1) * u ≤ d * u := Nat.mul_le_mul_right u hn
  have hmod : u % 2 ≤ 1 := by omega
  calc 2 * (n * u) + u % 2 ≤ 2 * (n * u) + 2 * u + d := by omega
    _ = 2 * ((n + 1) * u) + d := by ring
    _ ≤ 2 * (d * u) + d := by omega
    _ = (2 * u + 1) * d := by ring

theorem ceilQuotient_le_two_pow {n d p : Nat} (hd : 0 < d) (h : n < 2 ^ p * d) : ceilQuotient n d ≤ 2 ^ p := by
  rcases Nat.lt_or_ge n d with hn | hn
  · exact (ceilQuotient_le_one hn).trans Nat.one_le_two_pow
  · obtain ⟨e, hle, hlt⟩ := exists_exponent hd hn
    have he : e + 1 ≤ p := by
      have hpow : 2 ^ e < 2 ^ p := Nat.lt_of_mul_lt_mul_right (hle.trans_lt h)
      exact (Nat.pow_lt_pow_iff_right Nat.one_lt_two).mp hpow
    have hgrid := grid_two_pow e
    have hsignificand : significand n d ≤ 2 ^ 53 := by
      rw [significand_le_iff n hd, places_of_le hd hle hlt]
      generalize 2 ^ (grid e).1 = u at hgrid ⊢
      generalize 2 ^ (grid e).2 = w at hgrid ⊢
      have hn : n * u ≤ 2 ^ 53 * (d * w) := by
        calc n * u ≤ 2 ^ (e + 1) * d * u := Nat.mul_le_mul_right u hlt.le
          _ = 2 * d * (u * 2 ^ e) := by ring
          _ = 2 ^ 53 * (d * w) := by rw [hgrid]; ring
      generalize d * w = x at hn ⊢
      omega
    have hceil : ceilQuotient n d ≤ 2 ^ (e + 1) := by
      rw [ceilQuotient_le_iff_significand, places_of_le hd hle hlt]
      calc significand n d * 2 ^ (grid e).2 ≤ 2 ^ 53 * 2 ^ (grid e).2 := Nat.mul_le_mul_right _ hsignificand
        _ = 2 * (2 ^ 52 * 2 ^ (grid e).2) := by ring
        _ = 2 ^ (e + 1) * 2 ^ (grid e).1 := by rw [← hgrid]; ring
    exact hceil.trans (Nat.pow_le_pow_right Nat.two_pos he)

theorem two_pow_le_ceilQuotient {n d p : Nat} (hd : 0 < d) (h : 2 ^ p * d ≤ n) : 2 ^ p ≤ ceilQuotient n d := by
  have hn : d ≤ n := le_trans (Nat.le_mul_of_pos_left d (Nat.two_pow_pos p)) h
  obtain ⟨e, hle, hlt⟩ := exists_exponent hd hn
  have he : p ≤ e := by
    have hpow : 2 ^ p < 2 ^ (e + 1) := Nat.lt_of_mul_lt_mul_right (h.trans_lt hlt)
    exact Nat.le_of_lt_succ ((Nat.pow_lt_pow_iff_right Nat.one_lt_two).mp hpow)
  have hgrid := grid_two_pow e
  have hsignificand : 2 ^ 52 ≤ significand n d := by
    by_contra hnot
    have hless : significand n d ≤ 2 ^ 52 - 1 := by omega
    rw [significand_le_iff n hd, places_of_le hd hle hlt] at hless
    generalize 2 ^ (grid e).1 = u at hgrid hless
    generalize hw : 2 ^ (grid e).2 = w at hgrid hless
    have hn : 2 ^ 52 * (d * w) ≤ n * u := by
      calc 2 ^ 52 * (d * w) = d * (2 ^ 52 * w) := by ring
        _ = 2 ^ e * d * u := by rw [← hgrid]; ring
        _ ≤ n * u := Nat.mul_le_mul_right u hle
    have hpos : 0 < d * w := Nat.mul_pos hd (hw ▸ Nat.two_pow_pos _)
    generalize d * w = x at hn hless hpos
    omega
  have hceil : 2 ^ e ≤ ceilQuotient n d := by
    by_contra hnot
    have hless : ceilQuotient n d ≤ 2 ^ e - 1 := by omega
    rw [ceilQuotient_le_iff_significand, places_of_le hd hle hlt] at hless
    have hge : 2 ^ e * 2 ^ (grid e).1 ≤ significand n d * 2 ^ (grid e).2 := by
      rw [Nat.mul_comm, hgrid]
      exact Nat.mul_le_mul_right _ hsignificand
    have hlt' : (2 ^ e - 1) * 2 ^ (grid e).1 < 2 ^ e * 2 ^ (grid e).1 :=
      Nat.mul_lt_mul_of_pos_right (Nat.sub_lt (Nat.two_pow_pos e) Nat.one_pos) (Nat.two_pow_pos _)
    omega
  exact (Nat.pow_le_pow_right Nat.two_pos he).trans hceil

/-- A double is less than `2 ^ 1024`. -/
def overflowExponent : Nat := 1024

/-- A quotient that is rounded to more than a double can be. -/
def overflows (n d : Nat) : Bool := overflowExponent ≤ (ceilQuotient n d).log2

/-! ### What comes out within a bound -/

/-- The greatest double that is not above `k`, as a multiple on its grid. -/
def cut (k : Nat) : Nat := k * 2 ^ (grid k.log2).1 / 2 ^ (grid k.log2).2

/-- The greatest number whose quotient by `d` does not come out above `k`: the midpoint
above the greatest double that is not. -/
def reach (d k : Nat) : Nat :=
  if k = 0 then d / 2 ^ (leastExponent + 1)
  else ((2 * cut k + 1) * (d * 2 ^ (grid k.log2).2) - cut k % 2) / 2 ^ ((grid k.log2).1 + 1)

/-- A significand has 53 bits. -/
theorem cut_bounds {k : Nat} (hk : k ≠ 0) : 2 ^ 52 ≤ cut k ∧ cut k < 2 ^ 53 := by
  have hgrid := grid_two_pow k.log2
  have hpos : 0 < 2 ^ (grid k.log2).2 := Nat.two_pow_pos _
  unfold cut
  refine ⟨(Nat.le_div_iff_mul_le hpos).mpr ?_, (Nat.div_lt_iff_lt_mul hpos).mpr ?_⟩
  · rw [← hgrid, Nat.mul_comm]
    exact Nat.mul_le_mul_right _ (Nat.log2_self_le hk)
  · calc k * 2 ^ (grid k.log2).1 < 2 ^ (k.log2 + 1) * 2 ^ (grid k.log2).1 :=
          Nat.mul_lt_mul_of_pos_right Nat.lt_log2_self (Nat.two_pow_pos _)
      _ = 2 * (2 ^ (grid k.log2).1 * 2 ^ k.log2) := by ring
      _ = 2 ^ 53 * 2 ^ (grid k.log2).2 := by rw [hgrid]; ring

theorem le_reach_iff {d k : Nat} (hd : 0 < d) (hk : k ≠ 0) (n : Nat) :
    n ≤ reach d k ↔
      2 * (n * 2 ^ (grid k.log2).1) + cut k % 2 ≤ (2 * cut k + 1) * (d * 2 ^ (grid k.log2).2) := by
  have hpos : 0 < (2 * cut k + 1) * (d * 2 ^ (grid k.log2).2) :=
    Nat.mul_pos (Nat.succ_pos _) (Nat.mul_pos hd (Nat.two_pow_pos _))
  have hpow : n * 2 ^ ((grid k.log2).1 + 1) = 2 * (n * 2 ^ (grid k.log2).1) := by ring
  rw [reach, if_neg hk, Nat.le_div_iff_mul_le (Nat.two_pow_pos _), hpow]
  omega

/-- With the exponent of `k`, the quotient is rounded on the grid of `k`. -/
theorem ceilQuotient_le_iff_same {n d k : Nat} (hd : 0 < d) (hk : k ≠ 0) (hle : 2 ^ k.log2 * d ≤ n)
    (hlt : n < 2 ^ (k.log2 + 1) * d) : ceilQuotient n d ≤ k ↔ n ≤ reach d k := by
  have hcut : significand n d * 2 ^ (grid k.log2).2 ≤ k * 2 ^ (grid k.log2).1 ↔ significand n d ≤ cut k :=
    (Nat.le_div_iff_mul_le (Nat.two_pow_pos _)).symm
  rw [ceilQuotient_le_iff_significand, places_of_le hd hle hlt, hcut, significand_le_iff n hd,
    places_of_le hd hle hlt, le_reach_iff hd hk]

/-- A smaller exponent is within the bound. -/
theorem le_reach_of_lt {n d k : Nat} (hd : 0 < d) (hk : k ≠ 0) (h : n < 2 ^ k.log2 * d) : n ≤ reach d k := by
  rw [le_reach_iff hd hk]
  have hgrid := grid_two_pow k.log2
  obtain ⟨hcut, -⟩ := cut_bounds hk
  generalize 2 ^ (grid k.log2).1 = u at hgrid ⊢
  generalize hw : 2 ^ (grid k.log2).2 = w at hgrid ⊢
  have hpos : 0 < d * w := Nat.mul_pos hd (hw ▸ Nat.two_pow_pos _)
  have hn : n * u ≤ 2 ^ 52 * (d * w) := by
    calc n * u ≤ 2 ^ k.log2 * d * u := Nat.mul_le_mul_right u h.le
      _ = d * (u * 2 ^ k.log2) := by ring
      _ = 2 ^ 52 * (d * w) := by rw [hgrid]; ring
  have hmul : 2 ^ 52 * (d * w) ≤ cut k * (d * w) := Nat.mul_le_mul_right _ hcut
  have hmod : cut k % 2 < 2 := Nat.mod_lt _ Nat.two_pos
  calc 2 * (n * u) + cut k % 2 ≤ 2 * (cut k * (d * w)) + d * w := by omega
    _ = (2 * cut k + 1) * (d * w) := by ring

/-- A greater exponent is above it. -/
theorem reach_lt_of_le {n d k : Nat} (hd : 0 < d) (hk : k ≠ 0) (h : 2 ^ (k.log2 + 1) * d ≤ n) : reach d k < n := by
  by_contra hnot
  have hle := (le_reach_iff hd hk n).mp (Nat.le_of_not_lt hnot)
  have hgrid := grid_two_pow k.log2
  obtain ⟨-, hcut⟩ := cut_bounds hk
  generalize 2 ^ (grid k.log2).1 = u at hgrid hle
  generalize hw : 2 ^ (grid k.log2).2 = w at hgrid hle
  have hpos : 0 < d * w := Nat.mul_pos hd (hw ▸ Nat.two_pow_pos _)
  have hn : 2 ^ 53 * (d * w) ≤ n * u := by
    calc 2 ^ 53 * (d * w) = 2 * d * (2 ^ 52 * w) := by ring
      _ = 2 ^ (k.log2 + 1) * d * u := by rw [← hgrid]; ring
      _ ≤ n * u := Nat.mul_le_mul_right u h
  have hmul : (2 * cut k + 2) * (d * w) ≤ 2 ^ 54 * (d * w) := Nat.mul_le_mul_right _ (by omega)
  have hsplit : (2 * cut k + 2) * (d * w) = (2 * cut k + 1) * (d * w) + d * w := by ring
  omega

/-- A quotient comes out as zero when it is at most half of the least double. -/
theorem ceilQuotient_le_zero_iff {n d : Nat} (hd : 0 < d) : ceilQuotient n d ≤ 0 ↔ n ≤ reach d 0 := by
  have hdouble (e : Nat) : 2 ^ (e + 1) = 2 * 2 ^ e := Nat.pow_add_one'
  rw [reach, if_pos rfl, Nat.le_div_iff_mul_le (Nat.two_pow_pos _), hdouble]
  rcases Nat.lt_or_ge n d with hn | hn
  · rw [ceilQuotient_le_iff_significand, places_of_lt hn, Nat.pow_zero, Nat.mul_one, Nat.zero_mul,
      significand_le_iff n hd, places_of_lt hn]
    simp only [Nat.zero_mod, Nat.mul_zero, Nat.zero_add, Nat.one_mul, Nat.pow_zero, Nat.mul_one, Nat.add_zero]
    rcases Nat.eq_zero_or_pos n with rfl | hpos
    · simp
    · -- the exponent of the quotient, that is of its inverse
      have hlog : d ≤ n * 2 ^ (((d - 1) / n).log2 + 1) := by
        have hlt : (d - 1) / n < 2 ^ (((d - 1) / n).log2 + 1) := Nat.lt_log2_self
        have hmul := (Nat.div_lt_iff_lt_mul hpos).mp hlt
        rw [Nat.mul_comm] at hmul
        omega
      rcases Nat.le_total (53 + ((d - 1) / n).log2) leastExponent with hmin | hmin
      · rw [Nat.min_eq_left hmin]
        have hpow (e : Nat) (he : ((d - 1) / n).log2 + 1 ≤ e) : d ≤ n * 2 ^ e :=
          hlog.trans (Nat.mul_le_mul_left n (Nat.pow_le_pow_right Nat.two_pos he))
        have hfirst := hpow (53 + ((d - 1) / n).log2) (by omega)
        have hsecond := hpow leastExponent (by omega)
        refine iff_of_false (by omega) ?_
        rw [Nat.mul_left_comm]
        omega
      · rw [Nat.min_eq_right hmin, Nat.mul_left_comm]
  · have hone : 1 ≤ ceilQuotient n d := two_pow_le_ceilQuotient (p := 0) hd (by omega)
    refine iff_of_false (by omega) ?_
    have hbig : n * 1 ≤ n * 2 ^ leastExponent := Nat.mul_le_mul_left n Nat.one_le_two_pow
    rw [Nat.mul_left_comm]
    omega

/-- **The reach of a bound**: what comes out at most `k`. -/
theorem ceilQuotient_le_iff {n d : Nat} (hd : 0 < d) (k : Nat) : ceilQuotient n d ≤ k ↔ n ≤ reach d k := by
  rcases Nat.eq_zero_or_pos k with rfl | hpos
  · exact ceilQuotient_le_zero_iff hd
  have hk : k ≠ 0 := Nat.pos_iff_ne_zero.mp hpos
  rcases Nat.lt_or_ge n (2 ^ k.log2 * d) with hless | hle
  · have hceil := ceilQuotient_le_two_pow hd hless
    exact iff_of_true (hceil.trans (Nat.log2_self_le hk)) (le_reach_of_lt hd hk hless)
  · rcases Nat.lt_or_ge n (2 ^ (k.log2 + 1) * d) with hlt | hmore
    · exact ceilQuotient_le_iff_same hd hk hle hlt
    · have hceil := two_pow_le_ceilQuotient hd hmore
      have hlog : k < 2 ^ (k.log2 + 1) := Nat.lt_log2_self
      refine iff_of_false (by omega) ?_
      exact Nat.not_le_of_lt (reach_lt_of_le hd hk hmore)

/-- What is not too large to be divided. -/
theorem overflows_eq_false_iff {n d : Nat} (hd : 0 < d) :
    overflows n d = false ↔ n ≤ reach d (2 ^ overflowExponent - 1) := by
  rw [← ceilQuotient_le_iff hd, overflows, decide_eq_false_iff_not, Nat.not_le]
  have hpos : 0 < 2 ^ overflowExponent := Nat.two_pow_pos _
  rcases Nat.eq_zero_or_pos (ceilQuotient n d) with hzero | hceil
  · rw [hzero, Nat.log2_zero]
    exact iff_of_true (by decide) (Nat.zero_le _)
  · rw [Nat.log2_lt (Nat.pos_iff_ne_zero.mp hceil)]
    omega

/-- Numbers of 53 bits reach no further than they should. -/
theorem reach_lt {n d k : Nat} (hn : n < 2 ^ 53) (hd : d < 2 ^ (leastExponent + 1)) (hk : k * d < n) :
    reach d k < n := by
  rcases Nat.eq_zero_or_pos k with rfl | hpos
  · rw [reach, if_pos rfl, Nat.div_eq_of_lt hd]
    omega
  rcases Nat.eq_zero_or_pos d with rfl | hdpos
  · rw [reach, if_neg (by omega), Nat.zero_mul, Nat.mul_zero, Nat.zero_sub, Nat.zero_div]
    omega
  by_contra hnot
  have hle := (le_reach_iff hdpos (by omega) n).mp (Nat.le_of_not_lt hnot)
  have hself : 2 ^ k.log2 ≤ k := Nat.log2_self_le (by omega)
  have hsmall : 2 ^ k.log2 * d < 2 ^ 53 := ((Nat.mul_le_mul_right d hself).trans_lt hk).trans hn
  have hlog : k.log2 < 53 := by
    refine (Nat.pow_lt_pow_iff_right Nat.one_lt_two).mp ?_
    exact (Nat.le_mul_of_pos_right _ hdpos).trans_lt hsmall
  have hcoarse : (grid k.log2).2 = 0 := by
    show k.log2 - 52 = 0
    omega
  have hgrid := grid_two_pow k.log2
  rw [hcoarse, Nat.pow_zero, Nat.mul_one] at hgrid hle
  have hcut : cut k = k * 2 ^ (grid k.log2).1 := by rw [cut, hcoarse, Nat.pow_zero, Nat.div_one]
  rw [hcut] at hle
  generalize 2 ^ (grid k.log2).1 = u at hgrid hle
  -- the next multiple of the divisor is more than half a grid point away
  have hd : d < 2 * u := by
    have hmul : d * 2 ^ k.log2 < 2 * u * 2 ^ k.log2 := by
      rw [Nat.mul_assoc, hgrid, Nat.mul_comm d]
      exact hsmall
    exact Nat.lt_of_mul_lt_mul_right hmul
  have hnext : (k * d + 1) * u ≤ n * u := Nat.mul_le_mul_right u hk
  have hstep : (k * d + 1) * u = k * u * d + u := by ring
  have hsplit : (2 * (k * u) + 1) * d = 2 * (k * u * d) + d := by ring
  omega

end Library.Binary64
