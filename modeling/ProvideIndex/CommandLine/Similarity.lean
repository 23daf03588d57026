import ProvideIndex.Value.Binary64

/-!
# Similar words

The similarity of Jaro compares two words by the letters that they share at places not far from each
other. It lies between 0 and 1. Its quotients and sums are rounded one by one to numbers of 64 bits,
so that of two equal sums one may come out as the larger.
-/

namespace ProvideIndex.CommandLine

namespace Similarity

/-- How far apart two places may be for their letters to match. -/
def range (a b : List Char) : Nat := max a.length b.length / 2 - 1

/-- The first free place between two bounds that holds a letter. -/
def freePlace? (c : Char) (least bound : Nat) (taken : List Nat) (word : List Char) : Option Nat :=
  (List.range (min bound word.length)).find? fun place =>
    least ≤ place && word[place]? == some c && !taken.contains place

/-- The places of both words that match, those of the first word in their order. -/
def matchesFrom (range : Nat) (other : List Char) (place : Nat) (taken : List Nat) :
    List Char → List (Char × Nat)
  | [] => []
  | c :: word =>
    match freePlace? c (place - range) (place + range + 1) taken other with
    | some found =>
      (c, found) :: matchesFrom range other (place + 1) (found :: taken) word
    | none => matchesFrom range other (place + 1) taken word

/-- Half the number of matching letters that stand in another order. -/
def transpositions (matched : List (Char × Nat)) (other : List Char) : Nat :=
  let places := (matched.map (·.2)).mergeSort fun a b => a ≤ b
  let pairs := matched.zip places
  (pairs.filter fun ((c, _), place) => other[place]? != some c).length / 2

/-- The number nearest to a quotient. -/
def quotient (numerator denominator : Nat) : Binary64 :=
  (Binary64.ofQuotient? false numerator denominator).getD (.zero false)

/-- The number nearest to a sum. -/
def sum (x y : Binary64) : Binary64 := quotient (x.numerator + y.numerator) (1 <<< 1074)

/-- The number nearest to a third. -/
def third (x : Binary64) : Binary64 := quotient x.numerator (3 <<< 1074)

def exceeds (x y : Binary64) : Bool := y.numerator < x.numerator

def ofWords (a b : List Char) : Binary64 :=
  if a.isEmpty && b.isEmpty then quotient 1 1
  else
    let matched := matchesFrom (range a b) b 0 [] a
    let m := matched.length
    if m = 0 then quotient 0 1
    else
      let aligned := m - transpositions matched b
      third (sum (sum (quotient m a.length) (quotient m b.length)) (quotient aligned m))

/-- What a word has to exceed to count as similar. -/
def threshold : Binary64 := quotient 7 10

end Similarity

/-- The word most similar to a text, the last one if more are; none if all are too different. -/
def mostSimilar? (text : String) (words : List String) : Option String :=
  let better (best : Option (String × Binary64)) (word : String) : Option (String × Binary64) :=
    let similarity := Similarity.ofWords text.toList word.toList
    if Similarity.exceeds similarity Similarity.threshold then
      match best with
      | some (_, most) =>
        if Similarity.exceeds most similarity then best else some (word, similarity)
      | none => some (word, similarity)
    else best
  (words.foldl better none).map (·.1)

end ProvideIndex.CommandLine
