import CoreBench.Random.Uniform
import CoreBench.Stimuli.Matrix

/-!
Cases of the multiplication test: two operands and their product. The operands are drawn together, one element
of each for every cell.

Stated here:
  * `generate_invalid`: invalid parameters use no random words.
-/

namespace CoreBench.Stimuli

open CoreBench.Random

/-- Two operands and the product that is expected of them. -/
structure Case where
  params : Params
  a : Matrix
  b : Matrix
  expected : Matrix
  deriving DecidableEq, Repr

/-- Pairs of elements drawn behind those in `a` and `b`, and the state behind them. -/
def drawPairs {σ : Type} (next : Source σ) (range : Nat) (a b : Array Int32) :
    Nat → σ → Option (Array Int32 × Array Int32) × σ
  | 0, s => (some (a, b), s)
  | n + 1, s =>
    match draw next range s with
    | (none, s) => (none, s)
    | (some x, s) =>
      match draw next range s with
      | (none, s) => (none, s)
      | (some y, s) => drawPairs next range (a.push (Int32.ofInt x)) (b.push (Int32.ofInt y)) n s

namespace Case

/-- The case with the given cells of its operands. -/
def ofCells (p : Params) (a b : Array Int32) : Except StimuliError Case := do
  let a ← Matrix.ofCells? p.size a
  let b ← Matrix.ofCells? p.size b
  let expected ← a.multiply b
  .ok ⟨p, a, b, expected⟩

/-- A case drawn from a source of random words, and the state behind it. -/
def generate {σ : Type} (next : Source σ) (p : Params) (s : σ) : Except StimuliError Case × σ :=
  match p.validate with
  | .error e => (.error e, s)
  | .ok () =>
    match drawPairs next p.range #[] #[] (p.size * p.size) s with
    | (none, s) => (.error .starved, s)
    | (some (a, b), s) => (ofCells p a b, s)

theorem generate_invalid {σ : Type} {next : Source σ} {p : Params} {s : σ} {e : StimuliError}
    (h : p.validate = .error e) : generate next p s = (.error e, s) := by
  simp [generate, h]

/-- Cases drawn one after the other from one source, and the state behind them. -/
def generateAll {σ : Type} (next : Source σ) : List Params → σ → List (Except StimuliError Case) × σ
  | [], s => ([], s)
  | p :: ps, s =>
    let (r, s) := generate next p s
    let (rs, s) := generateAll next ps s
    (r :: rs, s)

end Case

end CoreBench.Stimuli
