import Mathlib.Tactic.Ring
import TierLineage.Proofs.Number.Rounding
import TierLineage.Number.Decimal

/-!
# The shortest decimal of a fraction

A magnitude below one of single precision is written as a decimal fraction of few places that is not
above one.  The digits of the magnitude are counted, so that the first grid on which a decimal is
sought is known up to a factor of ten; on the ninth one the spacing is finer than the interval of
what reads back, and so the nearest neighbour of the magnitude is found there at the latest.
-/

namespace TierLineage.Number

/-! ### Digits -/

theorem length_digitsOf_le {n k : Nat} (hk : 0 < k) : (digitsOf n).length ≤ k ↔ n < 10 ^ k :=
  Nat.length_toDigits_le_iff (by decide) hk

theorem pow_le_of_lt_length_digitsOf {n k : Nat} (hn : 0 < n) (h : k < (digitsOf n).length) :
    10 ^ k ≤ n := by
  rcases Nat.eq_zero_or_pos k with rfl | hk
  · exact hn
  · exact Nat.not_lt.mp fun hlt => Nat.not_le.mpr h ((length_digitsOf_le hk).mpr hlt)

theorem ofDigits_append (cs ds : List Char) :
    ofDigits (cs ++ ds) = Nat.ofDigitChars 10 ds (ofDigits cs) :=
  Nat.ofDigitChars_append 0

theorem ofDigits_digitsOf (n : Nat) : ofDigits (digitsOf n) = n :=
  Nat.ofDigitChars_ten_toDigits

/-- A decimal without trailing zeros is the same number, with as much greater an exponent as it had
zeros. -/
theorem Binary.trimmed_spec (d : Decimal) : ∃ zeros : Nat,
    (Binary.trimmed d).exponent = d.exponent + zeros ∧
      10 ^ zeros * (Binary.trimmed d).digits = d.digits := by
  have hsplit : ((digitsOf d.digits).reverse.dropWhile (· == '0')).reverse ++
      ((digitsOf d.digits).reverse.takeWhile (· == '0')).reverse = digitsOf d.digits := by
    rw [← List.reverse_append, List.takeWhile_append_dropWhile, List.reverse_reverse]
  have hzeros : ((digitsOf d.digits).reverse.takeWhile (· == '0')).reverse =
      List.replicate ((digitsOf d.digits).reverse.takeWhile (· == '0')).length '0' := by
    refine List.eq_replicate_iff.mpr ⟨List.length_reverse, fun c hc => ?_⟩
    exact beq_iff_eq.mp (List.all_eq_true.mp List.all_takeWhile c (List.mem_reverse.mp hc))
  refine ⟨((digitsOf d.digits).reverse.takeWhile (· == '0')).length, ?_, ?_⟩
  · have hlength := congrArg List.length hsplit
    simp only [List.length_append, List.length_reverse] at hlength
    simp only [Binary.trimmed, List.length_reverse]
    omega
  · have hvalue := ofDigits_digitsOf d.digits
    rw [← hsplit, hzeros, ofDigits_append, Nat.ofDigitChars_replicate_zero] at hvalue
    exact hvalue

/-! ### The shortest decimal -/

namespace Binary

/-- The space below a magnitude of single precision, down to the next one; below a power of two it
is half of that above. -/
def roomBelow (u : Nat) : Nat :=
  if u = Nat.pow 2 (Nat.log2 u) ∧ 1 < single.grain u then single.grain u / 2 else single.grain u

theorem roomBelow_spec (u : Nat) :
    roomBelow u ≤ single.grain u ∧ single.grain u ≤ 3 * roomBelow u := by
  rw [roomBelow]
  split <;> omega

theorem grain_le_self {u : Nat} (hpos : 0 < u) : single.grain u ≤ u := by
  refine Nat.le_trans ?_ (Nat.log2_self_le (Nat.ne_of_gt hpos))
  exact Nat.pow_le_pow_right (by decide) (by simp only [single]; omega)

/-- Whether `d · 10 ^ (-e)` reads back to a magnitude of single precision. -/
def Hits (u e d : Nat) : Bool :=
  between (u / single.grain u % 2 == 0) (2 * u - roomBelow u) (d * 2 ^ 149) (10 ^ e)
    (2 * u + single.grain u)

/-- On a grid of decimal fractions the neighbours of a magnitude are its quotient by the spacing,
rounded, and the other one. -/
theorem onGrid?_neg (u e : Nat) : onGrid? single u (-(e : Int)) =
    let q := u * 10 ^ e / 2 ^ 149
    let near := roundDiv (u * 10 ^ e) (2 ^ 149)
    let far := if near = q then q + 1 else q
    if 0 < near && Hits u e near then some ⟨near, -(e : Int)⟩
    else if 0 < far && Hits u e far then some ⟨far, -(e : Int)⟩
    else none := by
  have hup : (-(e : Int)).toNat = 0 := by omega
  have hdown : (- -(e : Int)).toNat = e := by omega
  have hstep : 10 ^ 0 * 2 ^ single.scale = 2 ^ 149 := Nat.one_mul _
  have hnear : (if 2 * (u * 10 ^ e % 2 ^ 149) < 2 ^ 149 ∨
      (2 * (u * 10 ^ e % 2 ^ 149) = 2 ^ 149 ∧ u * 10 ^ e / 2 ^ 149 % 2 = 0) then
        u * 10 ^ e / 2 ^ 149 else u * 10 ^ e / 2 ^ 149 + 1) = roundDiv (u * 10 ^ e) (2 ^ 149) := by
    simp only [roundDiv]
    split_ifs <;> omega
  simp only [onGrid?, hup, hdown, Nat.pow_eq]
  simp only [hstep, hnear, Hits, roomBelow, Nat.pow_eq]
  rfl

/-- What is found on a grid of decimal fractions is a neighbour of the magnitude that reads back. -/
theorem onGrid?_spec {u e : Nat} {d : Decimal} (h : onGrid? single u (-(e : Int)) = some d) :
    d.exponent = -(e : Int) ∧ 0 < d.digits ∧ d.digits ≤ u * 10 ^ e / 2 ^ 149 + 1 ∧
      Hits u e d.digits = true := by
  have hnear : roundDiv (u * 10 ^ e) (2 ^ 149) ≤ u * 10 ^ e / 2 ^ 149 + 1 := by
    simp only [roundDiv]
    split_ifs <;> omega
  have hfar : (if roundDiv (u * 10 ^ e) (2 ^ 149) = u * 10 ^ e / 2 ^ 149 then
      u * 10 ^ e / 2 ^ 149 + 1 else u * 10 ^ e / 2 ^ 149) ≤ u * 10 ^ e / 2 ^ 149 + 1 := by
    split <;> omega
  rw [onGrid?_neg] at h
  dsimp only at h
  generalize (if roundDiv (u * 10 ^ e) (2 ^ 149) = u * 10 ^ e / 2 ^ 149 then
    u * 10 ^ e / 2 ^ 149 + 1 else u * 10 ^ e / 2 ^ 149) = far at h hfar
  split at h
  · next hfound =>
    cases h
    rw [Bool.and_eq_true, decide_eq_true_eq] at hfound
    exact ⟨rfl, hfound.1, hnear, hfound.2⟩
  · split at h
    · next hfound =>
      cases h
      rw [Bool.and_eq_true, decide_eq_true_eq] at hfound
      exact ⟨rfl, hfound.1, hfar, hfound.2⟩
    · cases h

/-- Where nine digits of a magnitude stand, the grid is finer than the numbers are. -/
theorem lt_roomBelow_mul {u e : Nat} (h : 10 ^ 8 * 2 ^ 149 ≤ u * 10 ^ e) :
    2 ^ 149 < roomBelow u * 10 ^ e := by
  have hgrain : u < single.grain u * 2 ^ 24 := by
    refine Nat.lt_of_lt_of_le Nat.lt_log2_self ?_
    rw [Format.grain, Nat.pow_eq, ← Nat.pow_add]
    exact Nat.pow_le_pow_right (by decide) (by simp only [single]; omega)
  have hthird := (roomBelow_spec u).2
  have hmul : u * 10 ^ e ≤ (3 * roomBelow u * 2 ^ 24) * 10 ^ e :=
    Nat.mul_le_mul_right _ (by omega)
  have hassoc : (3 * roomBelow u * 2 ^ 24) * 10 ^ e = 50331648 * (roomBelow u * 10 ^ e) := by ring
  omega

/-- On a grid that is finer than the numbers a magnitude is found as its nearest neighbour. -/
theorem onGrid?_of_lt {u e : Nat} (hpos : 0 < u) (hwide : 2 ^ 149 < roomBelow u * 10 ^ e) :
    onGrid? single u (-(e : Int)) = some ⟨roundDiv (u * 10 ^ e) (2 ^ 149), -(e : Int)⟩ := by
  obtain ⟨hlow, hhigh⟩ := roundDiv_error (u * 10 ^ e) (by decide : 0 < 2 ^ 149)
  have hle := (roomBelow_spec u).1
  have hgrow : roomBelow u * 10 ^ e ≤ single.grain u * 10 ^ e := Nat.mul_le_mul_right _ hle
  have hself : single.grain u * 10 ^ e ≤ u * 10 ^ e := Nat.mul_le_mul_right _ (grain_le_self hpos)
  have hnear : 0 < roundDiv (u * 10 ^ e) (2 ^ 149) := by
    refine Nat.pos_of_ne_zero fun hzero => ?_
    rw [hzero] at hlow
    omega
  have hhits : Hits u e (roundDiv (u * 10 ^ e) (2 ^ 149)) = true := by
    have hsub : (2 * u - roomBelow u) * 10 ^ e = 2 * (u * 10 ^ e) - roomBelow u * 10 ^ e := by
      rw [Nat.sub_mul, Nat.mul_assoc]
    have hadd : (2 * u + single.grain u) * 10 ^ e =
        2 * (u * 10 ^ e) + single.grain u * 10 ^ e := by
      rw [Nat.add_mul, Nat.mul_assoc]
    rw [Hits, between]
    split <;> simp only [Bool.and_eq_true, decide_eq_true_eq, hsub, hadd] <;> omega
  rw [onGrid?_neg]
  simp only [hnear, hhits, decide_true, Bool.and_self, if_true]

/-- The place from which `shortest` looks for a decimal: the digits of the magnitude, which is moved
behind the point of every number in range, are counted. -/
theorem decimalWidth_spec {u : Nat} (hpos : 0 < u) (hu : u < 2 ^ 149) : ∃ bound width : Nat,
    decimalWidth single u = (width : Int) - bound ∧ bound < width + 45 ∧ width ≤ bound ∧ 17 ≤ width ∧
      10 ^ (width - 1) * 2 ^ 149 ≤ u * 10 ^ bound ∧ u * 10 ^ bound < 10 ^ width * 2 ^ 149 := by
  obtain ⟨bound, hbound, hlarge⟩ : ∃ bound : Nat, exponentBound = bound ∧ 62 ≤ bound :=
    ⟨400, rfl, by decide⟩
  have hwidth : decimalWidth single u =
      ((digitsOf (u * 10 ^ bound / 2 ^ 149)).length : Int) - bound := by
    rw [decimalWidth, hbound, Int.toNat_natCast]
    rfl
  have hbelow : u * 10 ^ bound / 2 ^ 149 < 10 ^ bound :=
    Nat.div_lt_of_lt_mul (Nat.mul_lt_mul_of_pos_right hu (Nat.pow_pos (by decide)))
  have habove : 10 ^ (bound - 45) ≤ u * 10 ^ bound / 2 ^ 149 := by
    refine (Nat.le_div_iff_mul_le (by decide)).mpr ?_
    calc 10 ^ (bound - 45) * 2 ^ 149 ≤ 10 ^ (bound - 45) * 10 ^ 45 :=
          Nat.mul_le_mul_left _ (by decide)
      _ = 1 * 10 ^ bound := by
          rw [← Nat.pow_add, Nat.sub_add_cancel (by omega), Nat.one_mul]
      _ ≤ u * 10 ^ bound := Nat.mul_le_mul_right _ hpos
  have hne : 0 < u * 10 ^ bound / 2 ^ 149 := Nat.lt_of_lt_of_le (Nat.pow_pos (by decide)) habove
  have hlong : bound - 45 < (digitsOf (u * 10 ^ bound / 2 ^ 149)).length :=
    Nat.not_le.mp fun hle => Nat.not_lt.mpr habove ((length_digitsOf_le (by omega)).mp hle)
  refine ⟨bound, _, hwidth, by omega, (length_digitsOf_le (by omega)).mpr hbelow, by omega, ?_, ?_⟩
  · exact (Nat.le_div_iff_mul_le (by decide)).mp
      (pow_le_of_lt_length_digitsOf hne (by omega))
  · exact (Nat.div_lt_iff_lt_mul (by decide)).mp
      ((length_digitsOf_le (by omega)).mp (Nat.le_refl _))

/-- The shortest decimal is the one on the first grid on which there is one. -/
theorem shortest_eq {f : Format} {u : Nat} {top : Int} {d : Decimal} (htop : decimalWidth f u = top)
    (h : ((List.range 17).map fun (n : Nat) => top - (n : Int) - 1).findSome? (onGrid? f u) = some d) :
    shortest f u = d := by
  rw [shortest, htop, h]
  rfl

/-- The shortest decimal of a magnitude below one is a fraction of nine digits at most that is not
above one. -/
theorem shortest_spec {u : Nat} (hpos : 0 < u) (hu : u < 2 ^ 149) : ∃ e : Nat, e ≤ 53 ∧
    onGrid? single u (-(e : Int)) = some (shortest single u) ∧
      (shortest single u).digits ≤ 10 ^ e ∧ (shortest single u).digits ≤ 10 ^ 9 := by
  obtain ⟨bound, width, hwidth, hlong, hshort, hpositive, hlow, hhigh⟩ := decimalWidth_spec hpos hu
  have hexponent : ∀ n : Nat,
      (width : Int) - bound - (n : Int) - 1 = -((bound + 1 + n - width : Nat) : Int) := by
    intro n
    omega
  -- seen from the `n`-th grid, the magnitude lies between two powers of ten
  have hgrid : ∀ n ≤ 8, 10 ^ n * 2 ^ 149 ≤ u * 10 ^ (bound + 1 + n - width) ∧
      u * 10 ^ (bound + 1 + n - width) < 10 ^ (n + 1) * 2 ^ 149 := by
    intro n hn
    obtain ⟨rest, hrest⟩ : ∃ rest, width = n + 1 + rest := ⟨width - (n + 1), by omega⟩
    have hbound : bound = bound + 1 + n - width + rest := by omega
    have hwhole : u * 10 ^ bound = u * 10 ^ (bound + 1 + n - width) * 10 ^ rest := by
      rw [Nat.mul_assoc, ← Nat.pow_add, ← hbound]
    have hless : width - 1 = n + rest := by omega
    rw [hwhole, hless, Nat.pow_add, Nat.mul_right_comm] at hlow
    rw [hwhole, hrest, Nat.pow_add, Nat.mul_right_comm _ (10 ^ rest), ← hrest] at hhigh
    exact ⟨Nat.le_of_mul_le_mul_right hlow (Nat.pow_pos (by decide)), Nat.lt_of_mul_lt_mul_right hhigh⟩
  -- one of the first nine grids is fine enough
  obtain ⟨d, hd⟩ : ∃ d, ((List.range 9).map fun (n : Nat) =>
      (width : Int) - bound - (n : Int) - 1).findSome? (onGrid? single u) = some d := by
    have hd := onGrid?_of_lt hpos (lt_roomBelow_mul (hgrid 8 (Nat.le_refl _)).1)
    rw [← hexponent] at hd
    have hmem : (width : Int) - bound - ((8 : Nat) : Int) - 1 ∈
        (List.range 9).map fun (n : Nat) => (width : Int) - bound - (n : Int) - 1 :=
      List.mem_map.mpr ⟨8, List.mem_range.mpr (by decide), rfl⟩
    exact Option.isSome_iff_exists.mp
      (List.findSome?_isSome_iff.mpr ⟨_, hmem, Option.isSome_iff_exists.mpr ⟨_, hd⟩⟩)
  have hall : ((List.range 17).map fun (n : Nat) =>
      (width : Int) - bound - (n : Int) - 1).findSome? (onGrid? single u) = some d := by
    have hsplit : List.range 17 = List.range 9 ++ (List.range 8).map (9 + ·) := rfl
    rw [hsplit, List.map_append, List.findSome?_append, hd]
    rfl
  obtain ⟨exponent, hmem, hfound⟩ := List.exists_of_findSome?_eq_some hd
  obtain ⟨n, hn, rfl⟩ := List.mem_map.mp hmem
  have hn : n ≤ 8 := Nat.le_of_lt_succ (List.mem_range.mp hn)
  rw [hexponent] at hfound
  obtain ⟨-, -, hle, -⟩ := onGrid?_spec hfound
  rw [shortest_eq hwidth hall]
  refine ⟨bound + 1 + n - width, by omega, hfound, Nat.le_trans hle ?_, Nat.le_trans hle ?_⟩
  · exact Nat.div_lt_of_lt_mul (Nat.mul_lt_mul_of_pos_right hu (Nat.pow_pos (by decide)))
  · have hlt : u * 10 ^ (bound + 1 + n - width) / 2 ^ 149 < 10 ^ (n + 1) :=
      (Nat.div_lt_iff_lt_mul (by decide)).mpr (hgrid n hn).2
    exact Nat.le_trans hlt (Nat.pow_le_pow_right (by decide) (by omega))

/-- A magnitude below one is written as what is found on a grid of decimal fractions, less the zeros
at its end. -/
theorem trimmed_shortest {u : Nat} (hpos : 0 < u) (hu : u < 2 ^ 149) : ∃ n places zeros : Nat,
    trimmed (shortest single u) = ⟨n, -(places : Int)⟩ ∧ places + zeros ≤ 53 ∧
      onGrid? single u (-((places + zeros : Nat) : Int)) =
        some ⟨10 ^ zeros * n, -((places + zeros : Nat) : Int)⟩ ∧
      0 < n ∧ n ≤ 10 ^ places ∧ n ≤ 10 ^ 9 := by
  obtain ⟨e, he, hfound, hle, hfew⟩ := shortest_spec hpos hu
  obtain ⟨hexponent, hdigits, -, -⟩ := onGrid?_spec hfound
  obtain ⟨zeros, hzeros, hvalue⟩ := trimmed_spec (shortest single u)
  have hne : 0 < (trimmed (shortest single u)).digits := by
    refine Nat.pos_of_ne_zero fun hzero => ?_
    rw [hzero, Nat.mul_zero] at hvalue
    omega
  have hshort : zeros ≤ e := by
    refine (Nat.pow_le_pow_iff_right (by decide : 1 < 10)).mp (Nat.le_trans ?_ hle)
    rw [← hvalue]
    exact Nat.le_mul_of_pos_right _ hne
  have hplaces : e - zeros + zeros = e := Nat.sub_add_cancel hshort
  refine ⟨(trimmed (shortest single u)).digits, e - zeros, zeros, ?_, by omega, ?_, hne, ?_, ?_⟩
  · have hplaces : (trimmed (shortest single u)).exponent = -((e - zeros : Nat) : Int) := by
      rw [hzeros, hexponent]
      omega
    rw [← hplaces]
  · have hparts : ∀ d : Decimal, (⟨d.digits, d.exponent⟩ : Decimal) = d := fun _ => rfl
    rw [hplaces, hvalue, hfound, ← hexponent, hparts]
  · refine Nat.le_of_mul_le_mul_left (c := 10 ^ zeros) ?_ (Nat.pow_pos (by decide))
    rwa [hvalue, ← Nat.pow_add, Nat.add_sub_cancel' hshort]
  · refine Nat.le_trans ?_ hfew
    rw [← hvalue]
    exact Nat.le_mul_of_pos_left _ (Nat.pow_pos (by decide))

end Binary

end TierLineage.Number
