/-!
# Searching

An `Expr` is a regular expression as a pattern means it: classes of characters, conditions on the
neighbours of a place, sequences, alternatives and counted repetitions. The places of a text of `n`
characters are the gaps before, between and behind them, and a set of places is a list of `n + 1`
truth values. `Expr.reach` gives the places at which a match may end when it starts at a place of a
set. Some match exists exactly if some place can be reached, so the order in which alternatives are
tried plays no part.
-/

namespace TraceGen

/-- A class of characters. -/
structure CharClass where
  /-- An estimate of the room that the class takes in a compiled expression. -/
  weight : Nat
  /-- Whether a character belongs to it. -/
  holds : Char → Bool

/-- A regular expression. -/
inductive Expr where
  | empty
  | chars (c : CharClass)
  | look (condition : Option Char → Option Char → Bool)
  | seq (first rest : Expr)
  | alt (first rest : Expr)
  | times (least : Nat) (most : Option Nat) (body : Expr)

/-- A set of places of a text. -/
abbrev Places := List Bool

namespace Places

/-- The places of either set. -/
def union (a b : Places) : Places :=
  List.zipWith (· || ·) a b

/-- The places of both sets. -/
def inter (a b : Places) : Places :=
  List.zipWith (· && ·) a b

/-- The places of the first set that are not in the second. -/
def without (a b : Places) : Places :=
  List.zipWith (fun x y => x && !y) a b

/-- No place of a text. -/
def none (text : List Char) : Places :=
  false :: text.map fun _ => false

/-- Every place of a text. -/
def all (text : List Char) : Places :=
  true :: text.map fun _ => true

/-- The place before a text. -/
def start (text : List Char) : Places :=
  true :: text.map fun _ => false

/-- The places whose neighbours meet a condition. -/
def whereNeighbours (condition : Option Char → Option Char → Bool) (text : List Char) : Places :=
  List.zipWith condition (Option.none :: text.map some) (text.map some ++ [Option.none])

/-- The places behind a character of the class that stands at a place of the set. -/
def advance (c : Char → Bool) (text : List Char) (s : Places) : Places :=
  false :: List.zipWith (fun b x => b && c x) s text

/-- The set after `n` steps. -/
def iterate (step : Places → Places) : Nat → Places → Places
  | 0, s => s
  | n + 1, s => if s.any id then iterate step n (step s) else s

/-- What up to `n` steps from the places `fresh` reach, besides the places `seen`. A step is made up
of the steps from each place, so that it is enough to go on from places not seen before. -/
def closure (step : Places → Places) : Nat → Places → Places → Places
  | 0, _, seen => seen
  | n + 1, fresh, seen =>
    let next := without (step fresh) seen
    if next.any id then closure step n next (union seen next) else seen

end Places

namespace Expr

/-- The places at which a match may end that starts at a place of the set. A text of `n` characters
has `n + 1` places, so after `n + 1` steps some step has stayed where it was, and further steps
reach nothing new. -/
def reach (text : List Char) : Expr → Places → Places
  | .empty, s => s
  | .chars c, s => Places.advance c.holds text s
  | .look condition, s => Places.inter s (Places.whereNeighbours condition text)
  | .seq a b, s => reach text b (reach text a s)
  | .alt a b, s => Places.union (reach text a s) (reach text b s)
  | .times least most a, s =>
    let bound := text.length + 1
    let begun := Places.iterate (reach text a) (min least bound) s
    match most with
    | none => Places.closure (reach text a) bound begun begun
    | some most => Places.closure (reach text a) (min (most - least) bound) begun begun

/-- Whether the text has a match that starts anywhere. -/
def occursIn (e : Expr) (text : List Char) : Bool :=
  (e.reach text (Places.all text)).any id

/-- Whether the text has a match that starts at its front. -/
def matchesFront (e : Expr) (text : List Char) : Bool :=
  (e.reach text (Places.start text)).any id

/-- An estimate of the room that an expression takes when its repetitions are written out. -/
def weight : Expr → Nat
  | .empty => 1
  | .chars c => c.weight
  | .look _ => 1
  | .seq a b => a.weight + b.weight
  | .alt a b => a.weight + b.weight + 2
  | .times least none a => max least 1 * a.weight + 2
  | .times least (some most) a => most * a.weight + 2 * (most - least) + 1

end Expr

end TraceGen
