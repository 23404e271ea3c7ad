/-
  File:      Sluice/Http/Method.lean
  Subject:   Request methods.

  * `Method`: the six known methods, and any other token;
  * `known`, `knownName`: their names, in matching order;
  * `isBodyless`: the methods whose requests never carry a body.
-/
import Sluice.Text.WordTrie

namespace Sluice.Http

/-- A request method. -/
inductive Method where
  | get
  | post
  | put
  | delete
  | head
  | options
  | custom
  deriving DecidableEq, Repr

namespace Method

/-- The methods with a fixed name. -/
def known : List Method := [.get, .post, .put, .delete, .head, .options]

/-- The fixed name of a method. -/
def knownName : Method → Option String
  | .get => some "GET"
  | .post => some "POST"
  | .put => some "PUT"
  | .delete => some "DELETE"
  | .head => some "HEAD"
  | .options => some "OPTIONS"
  | .custom => none

/-- Requests with these methods have no body, whatever their headers say. -/
def isBodyless : Method → Bool
  | .get | .head | .options => true
  | .post | .put | .delete | .custom => false

/-- The known names with their methods. -/
def words : List (Text × Method × Text) :=
  known.filterMap fun m => m.knownName.map fun name => (name.toList, m, name.toList)

/-- The known names, for recognising a method without copying its token. -/
def trie : WordTrie (Method × Text) := .ofWords words

end Method

end Sluice.Http
