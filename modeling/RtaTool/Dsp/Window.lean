import RtaTool.Dsp.RealFft

/-!
# Windows

`Window.cpp`. The shapes are periodic: a coefficient is the shape at its part of a turn, the turn
being the size and not the last place.

## Main definitions

* `WindowType`, `cosineSum`, `tukey`, `windowShape`
* `Window`, `Window.make`

## Main results

* `Window.make_eq` -- what is made of a size that is taken
-/

namespace RtaTool

namespace Dsp

/-- `WindowType`. -/
inductive WindowType
  | rectangular
  | hann
  | hamming
  | blackmanHarris
  | flatTop
  | tukey
  deriving DecidableEq, Repr

variable {K : Type*} [Field K]

/-! ### Shapes -/

/-- `kHann`. -/
def kHann : List ℚ := [0.5, 0.5]

/-- `kHamming`. -/
def kHamming : List ℚ := [0.54, 0.46]

/-- `kBlackmanHarris`. -/
def kBlackmanHarris : List ℚ := [0.35875, 0.48829, 0.14128, 0.01168]

/-- `kFlatTop`. -/
def kFlatTop : List ℚ := [0.21557895, 0.41663158, 0.277263158, 0.083578947, 0.006947368]

/-- `cosineSum(a, n, N)`. -/
def cosineSum (trig : Trig K) (a : List ℚ) (n N : ℕ) : K :=
  let x := 2 * trig.pi * n / N
  let turn := fun (acc : K × K) (k : ℕ) =>
    (acc.1 + acc.2 * (a.getD k 0 : ℚ) * trig.cos (k * x), -acc.2)
  ((List.range a.length).foldl turn (0, 1)).1

variable [LinearOrder K]

/-- `tukey(n, N, alpha)`. -/
def tukey (trig : Trig K) (n N : ℕ) (alpha : K) : K :=
  if alpha ≤ 0 then 1
  else
    let alpha := if 1 < alpha then 1 else alpha
    let x : K := n / N
    let half := alpha / 2
    if x < half then 1 / 2 * (1 + trig.cos (2 * trig.pi / alpha * (x - half)))
    else if x ≤ 1 - half then 1
    else 1 / 2 * (1 + trig.cos (2 * trig.pi / alpha * (x - 1 + half)))

/-- The value that the constructor computes for place `n`. -/
def windowShape (trig : Trig K) (type : WindowType) (size : ℕ) (param : K) (n : ℕ) : K :=
  match type with
  | .rectangular => 1
  | .hann => cosineSum trig kHann n size
  | .hamming => cosineSum trig kHamming n size
  | .blackmanHarris => cosineSum trig kBlackmanHarris n size
  | .flatTop => cosineSum trig kFlatTop n size
  | .tukey => tukey trig n size param

/-! ### `Window` -/

/-- `Window`. -/
structure Window (K : Type*) where
  type : WindowType
  coefficients : List K
  sum : K
  sumSquares : K

/-- `Window::Window(type, size, param)`. -/
def Window.make (trig : Trig K) (type : WindowType) (size : ℕ) (param : K) :
    Except String (Window K) :=
  if size = 0 then .error "Window size must be greater than zero"
  else
    .ok ((List.range size).foldl
      (fun window n =>
        let w := windowShape trig type size param n
        { window with
          coefficients := window.coefficients ++ [w]
          sum := window.sum + w
          sumSquares := window.sumSquares + w * w })
      { type, coefficients := [], sum := 0, sumSquares := 0 })

/-- The coefficients are the values of the shape, and the sums are theirs. -/
theorem Window.make_eq (trig : Trig K) (type : WindowType) {size : ℕ} (hsize : 0 < size)
    (param : K) :
    make trig type size param = .ok
      { type
        coefficients := (List.range size).map (windowShape trig type size param)
        sum := ∑ n ∈ Finset.range size, windowShape trig type size param n
        sumSquares := ∑ n ∈ Finset.range size,
          windowShape trig type size param n * windowShape trig type size param n } := by
  have hloop : ∀ count,
      (List.range count).foldl
        (fun (window : Window K) n =>
          let w := windowShape trig type size param n
          { window with
            coefficients := window.coefficients ++ [w]
            sum := window.sum + w
            sumSquares := window.sumSquares + w * w })
        { type, coefficients := [], sum := 0, sumSquares := 0 } =
      { type
        coefficients := (List.range count).map (windowShape trig type size param)
        sum := ∑ n ∈ Finset.range count, windowShape trig type size param n
        sumSquares := ∑ n ∈ Finset.range count,
          windowShape trig type size param n * windowShape trig type size param n } := by
    intro count
    induction count with
    | zero => rfl
    | succ count ih =>
      rw [List.range_succ, List.foldl_append, ih, Finset.sum_range_succ, Finset.sum_range_succ,
        List.map_append]
      rfl
  rw [make, if_neg hsize.ne', hloop]

end Dsp

end RtaTool
