/-
  File:      Sluice/Text/WordTrie.lean
  Subject:   A trie over a small fixed set of words.

  * `Trie`: a level of the trie, its branches in order of insertion;
  * `insert`, `ofWords`: one word more, a whole word list;
  * `search`: the value of the word a text begins with, up to the first stop character, and how
    many characters it took;
  * `lookup`: the same answer from the word list itself (the last entry of a word counts).
-/
import Sluice.Text.Fold

namespace Sluice

/-- A level of a trie: no branch, or a branch for one character (the value of the word that ends
    there, and the level below it) beside further branches. -/
inductive WordTrie (α : Type) where
  | leaf
  | branch (char : Char) (exact : Option α) (below beside : WordTrie α)
  deriving Repr

namespace WordTrie

variable {α : Type}

/-! ## 1. Building -/

/-- A level with the single word `c :: cs`. -/
def single (value : α) (c : Char) : Text → WordTrie α
  | [] => .branch c (some value) .leaf .leaf
  | d :: ds => .branch c none (single value d ds) .leaf

/-- The word `c :: cs` put into a level: down the branch of its first character, or behind the
    last branch if there is none. -/
def insertCons (value : α) : WordTrie α → Char → Text → WordTrie α
  | .leaf, c, cs => single value c cs
  | .branch d exact below beside, c, cs =>
    if c = d then
      match cs with
      | [] => .branch d (some value) below beside
      | e :: es => .branch d exact (insertCons value below e es) beside
    else .branch d exact below (insertCons value beside c cs)

/-- A word put into a level; the empty word stands nowhere. -/
def insert (t : WordTrie α) (word : Text) (value : α) : WordTrie α :=
  match word with
  | [] => t
  | c :: cs => insertCons value t c cs

/-- The trie of a word list. -/
def ofWords (words : List (Text × α)) : WordTrie α :=
  words.foldl (fun t w => t.insert w.1 w.2) .leaf

/-! ## 2. Searching -/

/-- The branch of a character: the value of the word ending there and the level below. -/
def find? : WordTrie α → Char → Option (Option α × WordTrie α)
  | .leaf, _ => none
  | .branch d exact below beside, c => if c = d then some (exact, below) else find? beside c

/-- Walks down from a level, `here` being the value at the place reached after `n` characters. -/
def searchFrom (stop : Char → Bool) (level : WordTrie α) (here : Option α) (n : Nat) :
    Text → Option (α × Nat)
  | [] => here.map (·, n)
  | c :: cs =>
    if stop c then here.map (·, n)
    else
      match level.find? c with
      | none => none
      | some (exact, below) => searchFrom stop below exact (n + 1) cs

/-- The value of the word that the text spells up to its first stop character, with the length of
    that word; nothing if these characters are not exactly one of the words. -/
def search (t : WordTrie α) (stop : Char → Bool) (text : Text) : Option (α × Nat) :=
  searchFrom stop t none 0 text

/-- The plain reading of a word list: the value of the last pair whose word is `w`. -/
def lookup (words : List (Text × α)) (w : Text) : Option α :=
  (words.reverse.find? fun p => p.1 = w).map (·.2)

end WordTrie

end Sluice
