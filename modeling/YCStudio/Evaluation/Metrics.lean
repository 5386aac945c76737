import Mathlib.Algebra.Order.Field.Basic
import Mathlib.Data.Rat.Floor
import YCStudio.Services.Reads

namespace YCStudio

-- An exception as the run records it: the name of its type and str(error).
structure PyException where
  typeName : Str
  message : Str
  deriving DecidableEq, Repr

def PyException.text (e : PyException) : Str := e.typeName ++ ": ".toList ++ e.message

def pyValueError (message : String) : PyException where
  typeName := "ValueError".toList
  message := message.toList

def zeroDivisionError : PyException where
  typeName := "ZeroDivisionError".toList
  message := "float division by zero".toList

-- Python's floats: float() of a number, sum(), * and /, each with the rounding that it does.
structure FloatArithmetic (K : Type) where
  float : Rat → Except PyException K
  sum : List K → K
  mul : K → K → K
  div : K → K → K

def FloatArithmetic.exact (K : Type) [Field K] : FloatArithmetic K where
  float value := .ok value
  sum := List.sum
  mul := (· * ·)
  div := (· / ·)

-- values[:k]
def sliceTo {α : Type} (values : List α) (k : Int) : List α :=
  values.take (if k < 0 then (values.length + k).toNat else k.toNat)

def relevantPositions (retrievedIds expectedIds : List Str) (k : Int) : List Nat :=
  (((sliceTo retrievedIds k).zipIdx 1).filter (·.1 ∈ expectedIds)).map Prod.snd

structure RetrievalMetrics (K : Type) where
  «recall» : K
  mrr : K
  ndcg : K
  hitPositions : List Nat
  deriving DecidableEq, Repr

section Metrics

variable {K : Type} [Field K] [LinearOrder K] (log2 : Nat → K) (retrievedIds expectedIds : List Str)

def recallAtK (k : Int) : K :=
  let expected := expectedIds.dedup
  if expected = [] ∨ k ≤ 0 then 0
  else
    let hitCount := (expected.filter (· ∈ sliceTo retrievedIds k)).length
    min 1 (max 0 (hitCount / expected.length))

def reciprocalRank (k : Option Int) : K :=
  let limit := match k with
    | none => retrievedIds.length
    | some k => max 0 k
  match relevantPositions retrievedIds expectedIds limit with
  | [] => 0
  | position :: _ => 1 / position

def discountedGain (positions : List Nat) : K :=
  (positions.map fun position => 1 / log2 (position + 1)).sum

def ndcgAtK (k : Int) : K :=
  let expected := expectedIds.dedup
  if expected = [] ∨ k ≤ 0 then 0
  else
    let positions := relevantPositions retrievedIds expected k
    let dcg := discountedGain log2 positions
    let idealHits := min expected.length k.toNat
    let idcg := discountedGain log2 (List.range' 1 idealHits)
    if idcg = 0 then 0 else min 1 (max 0 (dcg / idcg))

def evaluateRetrieval (k : Int) : RetrievalMetrics K where
  «recall» := recallAtK retrievedIds expectedIds k
  mrr := reciprocalRank retrievedIds expectedIds (some k)
  ndcg := ndcgAtK log2 retrievedIds expectedIds k
  hitPositions := relevantPositions retrievedIds expectedIds k

def weightedMean (floats : FloatArithmetic K) (values : List K) (weights : Option (List K)) :
    Except PyException K :=
  if values = [] then .ok 0
  else match weights with
    | none => .ok (floats.div (floats.sum values) values.length)
    | some weights =>
        if values.length ≠ weights.length ∨ ∀ weight ∈ weights, weight = 0 then .ok 0
        else if floats.sum weights = 0 then .error zeroDivisionError
        else .ok (floats.div (floats.sum (List.zipWith floats.mul values weights))
          (floats.sum weights))

end Metrics

def percentile (values : List Rat) (percentileValue : Rat) : Except PyException Rat :=
  if values = [] then .ok 0
  else if ¬ (0 ≤ percentileValue ∧ percentileValue ≤ 100) then
    .error (pyValueError "percentile must be between 0 and 100")
  else
    let ordered := values.insertionSort (· ≤ ·)
    let rank := max 1 ⌊percentileValue / 100 * ordered.length + 999999 / 1000000⌋.toNat
    .ok (ordered.getD (min ordered.length rank - 1) 0)

example : (evaluateRetrieval (fun n => (n : Rat)) ["b".toList, "a".toList] ["a".toList] 2).mrr =
    1 / 2 := by
  decide +kernel

example : percentile [3, 1, 2] 50 = .ok 2 := by decide +kernel

end YCStudio
