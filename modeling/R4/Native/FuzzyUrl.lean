import R4.Native.ReplayScheduler

/-!
# Fuzzy matching of URLs

`FuzzyUrlMatcher` (`R4/clients/Replay/fuzzyurl.h`, `fuzzyurl.cpp`): how similar two URLs are. URLs
with another host, another number of path fragments or other query keys do not match at all;
otherwise every equal path fragment and every equal query value adds to the score.

A URL is a `QUrl`, which is a class of Qt: `QUrlMethods` are those of its methods that are called.
-/

namespace R4

open StdString

/-- What is called of `QUrl`. The keys and values of `queryItems` are decoded; nothing is assumed of
    how `hasQueryItem` and `queryItemValue` compare keys. -/
class QUrlMethods (U : Type) where
  /-- `operator==`. -/
  equals : U → U → Bool
  host : U → StdString
  path : U → StdString
  hasQuery : U → Bool
  queryItems : U → List (StdString × StdString)
  hasFragment : U → Bool
  hasQueryItem : U → StdString → Bool
  queryItemValue : U → StdString → StdString

namespace FuzzyUrlMatcher

open QUrlMethods

variable {U : Type} [QUrlMethods U]

/-- `MATCH`. -/
def fullMatch : UInt32 := UInt32.ofNat (2 ^ 32 - 1)

/-- `MISMATCH`. -/
def mismatch : UInt32 := 0

/-- `path().split("/")`. -/
def pathFragments (url : U) : List StdString := (path url).splitOn '/'

/-- The loop over the query items, on the score so far. A key that the other URL does not have is
    a mismatch. -/
def scoreQuery (other : U) :
    List (StdString × StdString) → UInt32 → Option UInt32
  | [], score => some score
  | item :: items, score =>
    if hasQueryItem other item.1 then
      scoreQuery other items (if item.2 = queryItemValue other item.1 then score + 1 else score)
    else none

/-- The loop over the path fragments, on the score so far. -/
def scoreFragments (scorePath : UInt32) :
    List StdString → List StdString → UInt32 → UInt32
  | fragment :: fragments, other :: others, score =>
    scoreFragments scorePath fragments others
      (if fragment = other then score + scorePath else score)
  | _, _, score => score

/-- `score(other)` of the matcher of `url`. -/
def score (url other : U) : UInt32 :=
  -- the fast path
  if equals url other then fullMatch
  else if host url ≠ host other then mismatch
  else if (pathFragments url).length ≠ (pathFragments other).length then mismatch
  else if hasQuery url ≠ hasQuery other then mismatch
  else if (queryItems url).length ≠ (queryItems other).length then mismatch
  else if hasFragment url ≠ hasFragment other then mismatch
  else
    match scoreQuery other (queryItems url) 1 with
    | none => mismatch
    | some score =>
      -- the queries only decide between paths that match equally well
      scoreFragments (UInt32.ofNat (queryItems url).length + 1) (pathFragments url)
        (pathFragments other) score

/-- `FuzzyUrlMatcher(QUrl(url)).score(QUrl(other))`. -/
def scoreText (parse : StdString → U) (url other : StdString) : Nat :=
  (score (parse url) (parse other)).toNat

end FuzzyUrlMatcher

end R4
