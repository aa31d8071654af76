/-!
# BlockPool — recycled items and their tokens

An `Item` is an object on loan from a recycler, and it may carry another such object. A `Token`
ties it to the stack of the thread that it was made for. The state of a token is shared by all who
hold it, so it is kept apart, in `Tokens`.

* `Item.adopt` — one item takes another to carry; what it carried before comes out.
* `Tokens.issue` — a token for a new item of a stack.
* `TokenState` — who made the item, where it belongs, and whether it is on its way back.
-/

namespace BlockPool.Recycling

/-- What brings an item home. An inert token brings it nowhere. -/
inductive Token where
  | inert
  | live (id : Nat)
deriving DecidableEq, Repr, Inhabited

/-- An object that can be lent, by its number, and perhaps another one with its token, which goes
back when the object is thrown away. -/
inductive Item where
  | plain (id : Nat)
  | carrying (id : Nat) (inner : Item) (token : Token)
deriving Repr, Inhabited

/-- An item with the token that brings it home. -/
structure Pooled where
  item : Item
  token : Token
deriving Repr, Inhabited

namespace Item

/-- The number of the object. -/
def id : Item → Nat
  | plain id => id
  | carrying id _ _ => id

/-- The object under another number. -/
def rename (item : Item) (id : Nat) : Item :=
  match item with
  | plain _ => plain id
  | carrying _ inner token => carrying id inner token

/-- What the object carries. -/
def carried? : Item → Option Pooled
  | plain _ => none
  | carrying _ inner token => some ⟨inner, token⟩

/-- The object carries another one from now on, in place of what it carried before. -/
def adopt (item : Item) (p : Pooled) : Item :=
  carrying item.id p.item p.token

end Item

-- ---------------------------------------------------------------------------
-- The state of tokens
-- ---------------------------------------------------------------------------

/-- Why an item could not be given back. -/
inductive RecycleError where
  | recycledAlready
  | foreignToken
deriving DecidableEq, Repr

/-- The text of the error. -/
def RecycleError.message : RecycleError → String
  | .recycledAlready => "recycled already"
  | .foreignToken => "handle belongs to another recycler"

/-- The kind of the error. -/
def RecycleError.kind : RecycleError → String
  | .recycledAlready => "RecycledAlready"
  | .foreignToken => "ForeignHandle"

/-- What all holders of a token share. -/
structure TokenState where
  /-- The recycler that issued the token. -/
  recycler : Nat
  /-- The stack that the item belongs to. -/
  home : Nat
  /-- Whether the item was given back and not handed out again. -/
  recycled : Bool
  /-- Whether the item was once let through by the filter of its stack. -/
  keptBefore : Bool
deriving DecidableEq, Repr, Inhabited

/-- The state of each token, by its number. -/
abbrev Tokens := Array TokenState

namespace Tokens

/-- The state of a token; an inert one has none. -/
def state? (tokens : Tokens) : Token → Option TokenState
  | .inert => none
  | .live id => tokens[id]?

/-- Changes the state of a token. -/
def modifyState (tokens : Tokens) (token : Token) (f : TokenState → TokenState) : Tokens :=
  match token with
  | .inert => tokens
  | .live id => tokens.modify id f

/-- A new token, for an item that is handed out. -/
def issue (tokens : Tokens) (recycler home : Nat) : Token × Tokens :=
  (.live tokens.size, tokens.push ⟨recycler, home, false, false⟩)

/-- Whether the item was given back and not handed out again. -/
def isRecycled (tokens : Tokens) (token : Token) : Bool :=
  ((tokens.state? token).map (·.recycled)).getD false

/-- Whether the item was once let through by the filter of its stack. -/
def keptBefore (tokens : Tokens) (token : Token) : Bool :=
  ((tokens.state? token).map (·.keptBefore)).getD false

/-- The item was given back. -/
def markRecycled (tokens : Tokens) (token : Token) : Tokens :=
  tokens.modifyState token fun state => { state with recycled := true }

/-- The item is handed out again. -/
def markInUse (tokens : Tokens) (token : Token) : Tokens :=
  tokens.modifyState token fun state => { state with recycled := false }

/-- The item was let through by the filter of its stack. -/
def markKept (tokens : Tokens) (token : Token) : Tokens :=
  tokens.modifyState token fun state => { state with keptBefore := true }

/-- The token in one line, for a reader of diagnostics. -/
def diagnose (tokens : Tokens) (token : Token) : String :=
  "Handle \x7b noop: " ++ toString (token == Token.inert)
    ++ ", recycled: " ++ toString (tokens.isRecycled token) ++ " \x7d"

end Tokens

/-- The object in one line, for a reader of diagnostics. -/
def Item.diagnose (item : Item) : String := s!"Obj({item.id})"

/-- The item on loan in one line, for a reader of diagnostics. -/
def Pooled.diagnose (p : Pooled) (tokens : Tokens) : String :=
  "Pooled \x7b value: Some(" ++ p.item.diagnose ++ "), handle: "
    ++ tokens.diagnose p.token ++ " \x7d"

end BlockPool.Recycling
