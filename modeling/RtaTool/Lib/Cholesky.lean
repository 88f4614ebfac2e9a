import RtaTool.Lib.CountedLoop
import Mathlib.Algebra.BigOperators.Intervals
import Mathlib.Algebra.Order.BigOperators.Ring.Finset
import Mathlib.Algebra.Order.Field.Basic
import Mathlib.Tactic.Linarith

/-!
# Cholesky's factorisation, entry by entry

The factorisation of a symmetric positive definite matrix, filled in row by row, and the two
substitutions that solve a system with the factor. An array is a function of its indices; what a loop
has not yet written is zero. The square root is a parameter, and all that is asked of it is that it
be one.

## Main definitions

* `Cholesky.factor` -- the factor, or `none` at a pivot that is not positive
* `Cholesky.forwardSubst`, `Cholesky.backSubst`, `Cholesky.solve`
* `Cholesky.quad`, `Cholesky.PosDefOn` -- the form of a matrix, and when it is positive definite
* `Cholesky.FilledTo` -- the factor, as far as it is written

## Main results

* `Cholesky.pivot_pos` -- the pivot of a positive definite matrix
* `Cholesky.factor_of_posDef` -- the factorisation succeeds, and the factor is one
* `Cholesky.sum_solve` -- the two substitutions solve the system
-/

namespace RtaTool

namespace Cholesky

variable {K : Type*} [Field K] [LinearOrder K]

/-! ### The algorithm -/

/-- `c` less every `f k`, one after another. -/
def subtractAll (f : ℕ → K) (ks : List ℕ) (c : K) : K := ks.foldl (fun sum k => sum - f k) c

/-- The entry `(i, j)` of the factor, once those it depends on are there. -/
def entry (sqrt : K → K) (a l : ℕ → ℕ → K) (i j : ℕ) : Option K :=
  let sum := subtractAll (fun k => l i k * l j k) (List.range j) (a i j)
  if i = j then if sum ≤ 0 then none else some (sqrt sum) else some (sum / l j j)

/-- `l` with one entry written. -/
def setEntry (l : ℕ → ℕ → K) (i j : ℕ) (v : K) : ℕ → ℕ → K :=
  fun r c => if r = i ∧ c = j then v else l r c

/-- The row `i`, from the left to the diagonal. -/
def fillRow (sqrt : K → K) (a l : ℕ → ℕ → K) (i : ℕ) : Option (ℕ → ℕ → K) :=
  (List.range (i + 1)).foldlM (fun l j => (entry sqrt a l i j).map (setEntry l i j)) l

/-- The factor of the first `n` rows and columns of `a`. -/
def factor (sqrt : K → K) (a : ℕ → ℕ → K) (n : ℕ) : Option (ℕ → ℕ → K) :=
  (List.range n).foldlM (fillRow sqrt a) fun _ _ => 0

/-- `l y = b`, from the top. -/
def forwardSubst (l : ℕ → ℕ → K) (b : ℕ → K) (n : ℕ) : ℕ → K :=
  (List.range n).foldl
    (fun y i =>
      Function.update y i (subtractAll (fun k => l i k * y k) (List.range i) (b i) / l i i))
    fun _ => 0

/-- `lᵀ x = y`, from the bottom. -/
def backSubst (l : ℕ → ℕ → K) (y : ℕ → K) (n : ℕ) : ℕ → K :=
  (List.range n).foldl
    (fun x ii =>
      let i := n - 1 - ii
      Function.update x i
        (subtractAll (fun k => l k i * x k) (List.range' (i + 1) (n - 1 - i)) (y i) / l i i))
    fun _ => 0

/-- The system's solution, by the factor. -/
def solve (l : ℕ → ℕ → K) (n : ℕ) (b : ℕ → K) : ℕ → K := backSubst l (forwardSubst l b n) n

omit [LinearOrder K] in
theorem subtractAll_range' (f : ℕ → K) (s n : ℕ) (c : K) :
    subtractAll f (List.range' s n) c = c - ∑ k ∈ Finset.Ico s (s + n), f k := by
  induction n with
  | zero => simp [subtractAll]
  | succ n ih =>
    rw [subtractAll, List.range'_1_concat, List.foldl_append]
    change subtractAll f (List.range' s n) c - f (s + n) = _
    rw [ih, ← Nat.add_assoc, Finset.sum_Ico_succ_top (Nat.le_add_right s n)]
    ring

omit [LinearOrder K] in
theorem subtractAll_range (f : ℕ → K) (n : ℕ) (c : K) :
    subtractAll f (List.range n) c = c - ∑ k ∈ Finset.range n, f k := by
  rw [List.range_eq_range', subtractAll_range', Nat.zero_add, Finset.range_eq_Ico]

/-! ### The substitutions -/

variable {l : ℕ → ℕ → K} {n : ℕ}

omit [LinearOrder K] in
theorem sum_forwardSubst {b : ℕ → K} (hdiag : ∀ i < n, l i i ≠ 0) :
    ∀ i < n, ∑ k ∈ Finset.range (i + 1), l i k * forwardSubst l b n k = b i := by
  refine foldl_range_invariant
    (fun m (y : ℕ → K) => ∀ i < m, ∑ k ∈ Finset.range (i + 1), l i k * y k = b i) ?_ ?_
  · intro i hi
    exact absurd hi (Nat.not_lt_zero i)
  · intro m hm y hy i hi
    -- what has been written below `m` is not written again
    have hkeep : ∀ v, ∀ j ≤ m,
        ∑ k ∈ Finset.range j, l i k * Function.update y m v k = ∑ k ∈ Finset.range j, l i k * y k := by
      intro v j hj
      refine Finset.sum_congr rfl fun k hk => ?_
      rw [Function.update_of_ne (by rw [Finset.mem_range] at hk; omega)]
    obtain hlt | rfl := Nat.lt_succ_iff_lt_or_eq.mp hi
    · rw [hkeep _ _ hlt, hy i hlt]
    · rw [Finset.sum_range_succ, hkeep _ _ le_rfl, Function.update_self, subtractAll_range,
        mul_div_cancel₀ _ (hdiag i hm)]
      ring

omit [LinearOrder K] in
theorem sum_backSubst {y : ℕ → K} (hdiag : ∀ i < n, l i i ≠ 0) :
    ∀ i < n, ∑ k ∈ Finset.Ico i n, l k i * backSubst l y n k = y i := by
  have hloop := foldl_range_invariant
    (fun m (x : ℕ → K) => ∀ i < n, n - m ≤ i → ∑ k ∈ Finset.Ico i n, l k i * x k = y i)
    (f := fun x ii =>
      let i := n - 1 - ii
      Function.update x i
        (subtractAll (fun k => l k i * x k) (List.range' (i + 1) (n - 1 - i)) (y i) / l i i))
    (s := fun _ => (0 : K)) (n := n) ?_ ?_
  · intro i hi
    exact hloop i hi (by omega)
  · intro i hi hle
    omega
  · intro m hm x hx i hi hle
    have hkeep : ∀ v, ∀ j, n - 1 - m < j →
        ∑ k ∈ Finset.Ico j n, l k i * Function.update x (n - 1 - m) v k =
          ∑ k ∈ Finset.Ico j n, l k i * x k := by
      intro v j hj
      refine Finset.sum_congr rfl fun k hk => ?_
      rw [Function.update_of_ne (by rw [Finset.mem_Ico] at hk; omega)]
    by_cases hnew : i = n - 1 - m
    · have hlast : i + 1 + (n - 1 - i) = n := by omega
      dsimp only
      rw [Finset.sum_eq_sum_Ico_succ_bot hi, hkeep _ _ (by omega), ← hnew, Function.update_self,
        subtractAll_range', hlast, mul_div_cancel₀ _ (hdiag i hi)]
      ring
    · rw [hkeep _ _ (by omega)]
      exact hx i hi (by omega)

/-! ### Quadratic forms -/

/-- `xᵀ a x` on the first `n` indices. -/
def quad (a : ℕ → ℕ → K) (n : ℕ) (x : ℕ → K) : K :=
  ∑ r ∈ Finset.range n, ∑ c ∈ Finset.range n, x r * a r c * x c

/-- Symmetric on the first `n` indices. -/
def SymmetricOn (a : ℕ → ℕ → K) (n : ℕ) : Prop := ∀ r < n, ∀ c < n, a r c = a c r

/-- Positive definite on the first `n` indices. -/
def PosDefOn (a : ℕ → ℕ → K) (n : ℕ) : Prop :=
  ∀ x : ℕ → K, (∃ i < n, x i ≠ 0) → 0 < quad a n x

omit [LinearOrder K] in
theorem quad_congr {a b : ℕ → ℕ → K} (h : ∀ r < n, ∀ c < n, a r c = b r c) (x : ℕ → K) :
    quad a n x = quad b n x := by
  refine Finset.sum_congr rfl fun r hr => Finset.sum_congr rfl fun c hc => ?_
  rw [h r (Finset.mem_range.mp hr) c (Finset.mem_range.mp hc)]

omit [LinearOrder K] in
theorem quad_add (a b : ℕ → ℕ → K) (n : ℕ) (x : ℕ → K) :
    quad (fun r c => a r c + b r c) n x = quad a n x + quad b n x := by
  simp only [quad, ← Finset.sum_add_distrib, mul_add, add_mul]

omit [LinearOrder K] in
/-- A Gram matrix gives a sum of squares. -/
theorem quad_gram {ι : Type*} (s : Finset ι) (w : ι → K) (l : ι → ℕ → K) (n : ℕ) (x : ℕ → K) :
    quad (fun r c => ∑ k ∈ s, w k * l k r * l k c) n x =
      ∑ k ∈ s, w k * (∑ r ∈ Finset.range n, l k r * x r) ^ 2 := by
  have hsquare : ∀ k, w k * (∑ r ∈ Finset.range n, l k r * x r) ^ 2 =
      ∑ r ∈ Finset.range n, ∑ c ∈ Finset.range n, x r * (w k * l k r * l k c) * x c := by
    intro k
    rw [pow_two, Finset.sum_mul_sum, Finset.mul_sum]
    refine Finset.sum_congr rfl fun r _ => ?_
    rw [Finset.mul_sum]
    exact Finset.sum_congr rfl fun c _ => by ring
  symm
  simp only [hsquare, quad]
  rw [Finset.sum_comm]
  refine Finset.sum_congr rfl fun r _ => ?_
  rw [Finset.sum_comm]
  refine Finset.sum_congr rfl fun c _ => ?_
  rw [Finset.mul_sum, Finset.sum_mul]

omit [LinearOrder K] in
/-- A matrix with one entry, on the diagonal. -/
theorem quad_corner (p : K) (n : ℕ) (x : ℕ → K) :
    quad (fun r c => if r = n ∧ c = n then p else 0) (n + 1) x = p * x n ^ 2 := by
  have hzero : ∀ r ∈ Finset.range (n + 1), r ≠ n →
      ∑ c ∈ Finset.range (n + 1), x r * (if r = n ∧ c = n then p else 0) * x c = 0 := by
    intro r _ hr
    refine Finset.sum_eq_zero fun c _ => ?_
    rw [if_neg fun h => hr h.1, mul_zero, zero_mul]
  rw [quad, Finset.sum_eq_single_of_mem n (Finset.self_mem_range_succ n) hzero,
    Finset.sum_eq_single_of_mem n (Finset.self_mem_range_succ n)]
  · rw [if_pos ⟨rfl, rfl⟩]
    ring
  · intro c _ hc
    rw [if_neg fun h => hc h.2, mul_zero, zero_mul]

theorem PosDefOn.leading {a : ℕ → ℕ → K} {m n : ℕ} (h : PosDefOn a n) (hmn : m ≤ n) :
    PosDefOn a m := by
  rintro x ⟨i, hi, hx⟩
  -- `x` cut off at `m`, a vector on the first `n` indices
  have hpos := h (fun r => if r < m then x r else 0) ⟨i, hi.trans_le hmn, by simpa [hi] using hx⟩
  have hsub : Finset.range m ⊆ Finset.range n := Finset.range_subset_range.mpr hmn
  have hquad : quad a n (fun r => if r < m then x r else 0) = quad a m x := by
    rw [quad, ← Finset.sum_subset hsub]
    · refine Finset.sum_congr rfl fun r hr => ?_
      rw [← Finset.sum_subset hsub]
      · refine Finset.sum_congr rfl fun c hc => ?_
        rw [if_pos (Finset.mem_range.mp hr), if_pos (Finset.mem_range.mp hc)]
      · intro c _ hc
        rw [if_neg (fun hlt => hc (Finset.mem_range.mpr hlt)), mul_zero]
    · intro r _ hr
      refine Finset.sum_eq_zero fun c _ => ?_
      rw [if_neg (fun hlt => hr (Finset.mem_range.mpr hlt)), zero_mul, zero_mul]
  exact hquad ▸ hpos

/-! ### The factor, as far as it is written -/

/-- The entry `(r, c)` is written before the entry `(i, j)`. -/
def WrittenBefore (i j r c : ℕ) : Prop := c ≤ r ∧ (r < i ∨ r = i ∧ c < j)

/-- The factor of `a` before its entry `(i, j)` is written. -/
structure FilledTo (a l : ℕ → ℕ → K) (i j : ℕ) : Prop where
  product : ∀ r c, WrittenBefore i j r c → ∑ k ∈ Finset.range (c + 1), l r k * l c k = a r c
  pos : ∀ r, WrittenBefore i j r r → 0 < l r r
  zero : ∀ r c, ¬ WrittenBefore i j r c → l r c = 0

variable {a l : ℕ → ℕ → K}

/-- The product of two rows is the same up to any column not to the left of the lower one's
diagonal. -/
theorem FilledTo.sum_range {i j : ℕ} (h : FilledTo a l i j) {r c m : ℕ} (hcm : c < m) :
    ∑ k ∈ Finset.range m, l r k * l c k = ∑ k ∈ Finset.range (c + 1), l r k * l c k := by
  refine (Finset.sum_subset (Finset.range_subset_range.mpr hcm) fun k _ hk => ?_).symm
  rw [Finset.mem_range, not_lt] at hk
  rw [h.zero c k fun hw => by have := hw.1; omega, mul_zero]

theorem FilledTo.start (a : ℕ → ℕ → K) : FilledTo a (fun _ _ => 0) 0 0 where
  product r c hw := by have := hw.2; omega
  pos r hw := by have := hw.2; omega
  zero _ _ _ := rfl

/-- A row that is written to its diagonal is written. -/
theorem FilledTo.newRow {i : ℕ} (h : FilledTo a l i (i + 1)) :
    FilledTo a l (i + 1) 0 where
  product r c hw := h.product r c ⟨hw.1, by have := hw.1; have := hw.2; omega⟩
  pos r hw := h.pos r ⟨hw.1, by have := hw.2; omega⟩
  zero r c hw := h.zero r c fun hw' => hw ⟨hw'.1, by have := hw'.1; have := hw'.2; omega⟩

theorem FilledTo.set {i j : ℕ} (h : FilledTo a l i j) (hji : j ≤ i) {v : K}
    (hv : ∑ k ∈ Finset.range j, l i k * l j k + v * (if i = j then v else l j j) = a i j)
    (hpos : i = j → 0 < v) : FilledTo a (setEntry l i j v) i (j + 1) := by
  -- what is left of the entry in its row, and the rows above, are as before
  have hkeep : ∀ r k, r ≠ i ∨ k < j → setEntry l i j v r k = l r k := by
    intro r k hrk
    rw [setEntry, if_neg]
    rintro ⟨rfl, rfl⟩
    omega
  have hself : setEntry l i j v i j = v := if_pos ⟨rfl, rfl⟩
  constructor
  · rintro r c ⟨hcr, hw⟩
    by_cases hnew : r = i ∧ c = j
    · obtain ⟨rfl, rfl⟩ := hnew
      rw [Finset.sum_range_succ, hself, ← hv]
      congr 1
      · refine Finset.sum_congr rfl fun k hk => ?_
        rw [hkeep r k (.inr (Finset.mem_range.mp hk)), hkeep c k (.inr (Finset.mem_range.mp hk))]
      · split_ifs with heq
        · rw [← heq] at hself ⊢
          rw [hself]
        · rw [hkeep c c (.inl (Ne.symm heq))]
    · rw [← h.product r c ⟨hcr, by omega⟩]
      refine Finset.sum_congr rfl fun k hk => ?_
      rw [Finset.mem_range] at hk
      rw [hkeep r k (by omega), hkeep c k (by omega)]
  · rintro r ⟨-, hw⟩
    by_cases hnew : r = i ∧ r = j
    · obtain ⟨rfl, rfl⟩ := hnew
      rw [hself]
      exact hpos rfl
    · rw [hkeep r r (by omega)]
      exact h.pos r ⟨le_rfl, by omega⟩
  · intro r c hw
    have hold : ¬ (r = i ∧ c = j) := by
      rintro ⟨rfl, rfl⟩
      exact hw ⟨hji, .inr ⟨rfl, Nat.lt_succ_self c⟩⟩
    rw [setEntry, if_neg hold]
    exact h.zero r c fun hw' => hw ⟨hw'.1, by have := hw'.2; omega⟩

section Factor

variable {a l : ℕ → ℕ → K} {n : ℕ}

/-- **Headline.** The pivot of a positive definite matrix is positive: it is the value of the form
at the vector that the rows above take to zero. -/
theorem pivot_pos {i : ℕ} (hpd : PosDefOn a (i + 1)) (hsymm : SymmetricOn a (i + 1))
    (h : FilledTo a l i i) : 0 < a i i - ∑ k ∈ Finset.range i, l i k * l i k := by
  set p := a i i - ∑ k ∈ Finset.range i, l i k * l i k with hp
  have hdiag : ∀ r < i, l r r ≠ 0 := fun r hr => (h.pos r ⟨le_rfl, .inl hr⟩).ne'
  let x : ℕ → K := Function.update (backSubst l (fun k => -l i k) i) i 1
  have hxi : x i = 1 := Function.update_self ..
  have hxr : ∀ r, r ≠ i → x r = backSubst l (fun k => -l i k) i r := fun r hr =>
    Function.update_of_ne hr _ _
  -- every column of the rows written so far is orthogonal to `x`
  have hzero : ∀ k < i, ∑ r ∈ Finset.range (i + 1), l r k * x r = 0 := by
    intro k hk
    have hbelow : ∑ r ∈ Finset.range k, l r k * x r = 0 := by
      refine Finset.sum_eq_zero fun r hr => ?_
      rw [Finset.mem_range] at hr
      rw [h.zero r k fun hw => by have := hw.1; omega, zero_mul]
    have hsolved : ∑ r ∈ Finset.Ico k i, l r k * x r = -l i k := by
      rw [← sum_backSubst (y := fun k => -l i k) hdiag k hk]
      refine Finset.sum_congr rfl fun r hr => ?_
      rw [Finset.mem_Ico] at hr
      rw [hxr r hr.2.ne]
    rw [Finset.sum_range_succ, ← Finset.sum_range_add_sum_Ico _ hk.le, hbelow, hsolved, hxi]
    ring
  have hform : ∀ r < i + 1, ∀ c < i + 1,
      a r c = ∑ k ∈ Finset.range i, 1 * l r k * l c k + if r = i ∧ c = i then p else 0 := by
    have hlower : ∀ r < i + 1, ∀ c ≤ r,
        a r c = ∑ k ∈ Finset.range i, 1 * l r k * l c k + if r = i ∧ c = i then p else 0 := by
      intro r hr c hcr
      simp only [one_mul]
      split_ifs with hcorner
      · rw [hcorner.1, hcorner.2, hp]
        ring
      · rw [add_zero, h.sum_range (by omega), h.product r c ⟨hcr, by omega⟩]
    intro r hr c hc
    obtain hcr | hrc := Nat.le_total c r
    · exact hlower r hr c hcr
    · rw [hsymm r hr c hc, hlower c hc r hrc, if_congr and_comm rfl rfl]
      congr 1
      exact Finset.sum_congr rfl fun k _ => by ring
  have hquad := hpd x ⟨i, Nat.lt_succ_self i, by rw [hxi]; exact one_ne_zero⟩
  rw [quad_congr hform, quad_add, quad_gram (Finset.range i) (fun _ => 1) (fun k r => l r k),
    quad_corner, hxi, Finset.sum_eq_zero] at hquad
  · simpa using hquad
  · intro k hk
    rw [hzero k (Finset.mem_range.mp hk)]
    ring

variable {sqrt : K → K}

section

variable (hsqrt : ∀ x, 0 < x → 0 < sqrt x ∧ sqrt x * sqrt x = x) (hpd : PosDefOn a n)
  (hsymm : SymmetricOn a n)

include hsqrt hpd hsymm

theorem exists_entry {i j : ℕ} (hi : i < n) (hji : j ≤ i) (h : FilledTo a l i j) :
    ∃ v, entry sqrt a l i j = some v ∧ FilledTo a (setEntry l i j v) i (j + 1) := by
  rw [entry, subtractAll_range]
  by_cases hdiag : i = j
  · subst hdiag
    have hpivot := pivot_pos (hpd.leading hi) (fun r hr c hc => hsymm r (by omega) c (by omega)) h
    obtain ⟨hpos, hsquare⟩ := hsqrt _ hpivot
    rw [if_pos rfl, if_neg hpivot.not_ge]
    refine ⟨_, rfl, h.set hji ?_ fun _ => hpos⟩
    rw [if_pos rfl, hsquare]
    ring
  · have hne : l j j ≠ 0 := (h.pos j ⟨le_rfl, .inl (by omega)⟩).ne'
    rw [if_neg hdiag]
    refine ⟨_, rfl, h.set hji ?_ fun heq => absurd heq hdiag⟩
    rw [if_neg hdiag, div_mul_cancel₀ _ hne]
    ring

/-- **Headline.** The factorisation of a symmetric positive definite matrix succeeds. -/
theorem factor_of_posDef :
    ∃ l, factor sqrt a n = some l ∧ FilledTo a l n 0 := by
  refine foldlM_range_invariant (fun i l => FilledTo a l i 0) (.start a) ?_
  intro i hi l h
  obtain ⟨l', hrow, h'⟩ : ∃ l', fillRow sqrt a l i = some l' ∧ FilledTo a l' i (i + 1) := by
    refine foldlM_range_invariant (fun j l => FilledTo a l i j) h ?_
    intro j hj l h
    obtain ⟨v, hv, h'⟩ := exists_entry hsqrt hpd hsymm hi (Nat.lt_succ_iff.mp hj) h
    exact ⟨_, by rw [hv, Option.map_some], h'⟩
  exact ⟨l', hrow, h'.newRow⟩

end

/-- **Headline.** The substitutions solve the system whose matrix was factored. -/
theorem sum_solve (hsymm : SymmetricOn a n) (h : FilledTo a l n 0) (b : ℕ → K) :
    ∀ i < n, ∑ j ∈ Finset.range n, a i j * solve l n b j = b i := by
  have hdiag : ∀ r < n, l r r ≠ 0 := fun r hr => (h.pos r ⟨le_rfl, .inl hr⟩).ne'
  have hproduct : ∀ r < n, ∀ c < n, a r c = ∑ k ∈ Finset.range n, l r k * l c k := by
    intro r hr c hc
    obtain hcr | hrc := Nat.le_total c r
    · rw [h.sum_range hc, h.product r c ⟨hcr, .inl hr⟩]
    · rw [hsymm r hr c hc, ← h.product c r ⟨hrc, .inl hc⟩, ← h.sum_range hr]
      exact Finset.sum_congr rfl fun k _ => mul_comm _ _
  have hback : ∀ k < n, ∑ j ∈ Finset.range n, l j k * solve l n b j = forwardSubst l b n k := by
    intro k hk
    rw [← sum_backSubst (y := forwardSubst l b n) hdiag k hk,
      ← Finset.sum_range_add_sum_Ico _ hk.le, solve]
    rw [Finset.sum_eq_zero, zero_add]
    intro r hr
    rw [Finset.mem_range] at hr
    rw [h.zero r k fun hw => by have := hw.1; omega, zero_mul]
  intro i hi
  calc ∑ j ∈ Finset.range n, a i j * solve l n b j
      = ∑ j ∈ Finset.range n, ∑ k ∈ Finset.range n, l i k * (l j k * solve l n b j) := by
        refine Finset.sum_congr rfl fun j hj => ?_
        rw [hproduct i hi j (Finset.mem_range.mp hj), Finset.sum_mul]
        exact Finset.sum_congr rfl fun k _ => mul_assoc _ _ _
    _ = ∑ k ∈ Finset.range n, l i k * forwardSubst l b n k := by
        rw [Finset.sum_comm]
        refine Finset.sum_congr rfl fun k hk => ?_
        rw [← Finset.mul_sum, hback k (Finset.mem_range.mp hk)]
    _ = ∑ k ∈ Finset.range (i + 1), l i k * forwardSubst l b n k := by
        refine (Finset.sum_subset (Finset.range_subset_range.mpr hi) fun k _ hk => ?_).symm
        rw [Finset.mem_range, not_lt] at hk
        rw [h.zero i k fun hw => by have := hw.1; omega, zero_mul]
    _ = b i := sum_forwardSubst hdiag i hi

end Factor

end Cholesky

end RtaTool
