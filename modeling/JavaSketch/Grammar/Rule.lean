import JavaSketch.Syntax.Node

/-!
# Grammars and how they are read

A grammar gives each symbol a rule, and a rule says which tokens it takes and
which syntax nodes it makes of them.  Of two alternatives the second is tried
only where the first fails, so a reading is found at most one way.

**Rules.**
* A token becomes a leaf; `node` gathers what its rule makes under one node.
* `grow` reads a first part and then as many steps as there are.  A step takes
  what has been read so far as its left part: that is how operators associate to
  the left.
* Reading remembers the furthest offset at which a token was looked at, which is
  where a text that cannot be read goes wrong.
-/

namespace JavaSketch
namespace Grammar

open Syntax (Node)

/-- A token of a source text. -/
structure Token where
  /-- The symbol of the token. -/
  type : String
  /-- The characters of the token. -/
  text : String
  /-- The offset of the first byte. -/
  start : Nat
  /-- The offset after the last byte. -/
  stop : Nat
  /-- Whether the token stands for a rule of the grammar. -/
  named : Bool
  deriving Inhabited, Repr

namespace Token

/-- The leaf that a token becomes. -/
def leaf (token : Token) : Node :=
  ⟨token.type, token.start, token.stop, token.named, false, none, []⟩

end Token

/-- What a part of a text looks like, over the symbols of a grammar. -/
inductive Rule (σ : Type)
  /-- No tokens at all. -/
  | nothing
  /-- A token of some symbol. -/
  | token (type : String)
  /-- A token of some symbol, as a named leaf of another. -/
  | renamed (type as : String)
  /-- An identifier that is used as a keyword. -/
  | word (text : String)
  /-- Tokens of some texts without gaps between them, as one leaf. -/
  | glued (type : String) (parts : List String)
  /-- What a symbol of the grammar stands for. -/
  | symbol (name : σ)
  /-- One rule after the other. -/
  | seq (first second : Rule σ)
  /-- The first rule or, where it fails, the second. -/
  | alt (first second : Rule σ)
  /-- A rule as many times as it succeeds. -/
  | many (item : Rule σ)
  /-- A rule that must succeed here, without taking its tokens. -/
  | ahead (item : Rule σ)
  /-- What a rule makes, in a role of the node around it. -/
  | field (name : String) (item : Rule σ)
  /-- What a rule makes, under one node. -/
  | node (type : String) (item : Rule σ)
  /-- A first part and any number of steps. -/
  | grow (base step : Rule σ)
  /-- A step that puts the left part, in some role, and what a rule makes under
  one node. -/
  | wrap (type : String) (role : Option String) (item : Rule σ)
  /-- A condition on the symbol of the left part of a step. -/
  | leftIs (types : List String)

namespace Rule

variable {σ : Type}

/-- Rules one after the other. -/
def all : List (Rule σ) → Rule σ
  | [] => nothing
  | [rule] => rule
  | rule :: rest => seq rule (all rest)

/-- The first of some rules that succeeds, the last one if none does. -/
def any : List (Rule σ) → Rule σ
  | [] => nothing
  | [rule] => rule
  | rule :: rest => alt rule (any rest)

/-- A rule, or nothing where it fails. -/
def optional (item : Rule σ) : Rule σ :=
  alt item nothing

/-- A rule at least once. -/
def some (item : Rule σ) : Rule σ :=
  seq item (many item)

/-- A rule at least once, with a token between any two. -/
def separated (separator : String) (item : Rule σ) : Rule σ :=
  seq item (many (seq (token separator) item))

/-- A rule any number of times, with commas between. -/
def list (item : Rule σ) : Rule σ :=
  optional (separated "," item)

instance : Coe String (Rule σ) :=
  ⟨token⟩

instance : Coe σ (Rule σ) :=
  ⟨symbol⟩

end Rule

/-- What reading a part of a text gives. -/
structure Reading where
  /-- The nodes that were made and the tokens that are left, unless the rule
  fails. -/
  result : Option (List Node × List Token)
  /-- The furthest offset at which a token was looked at. -/
  furthest : Nat

namespace Reading

/-- A reading that fails. -/
def fail (furthest : Nat) : Reading :=
  ⟨none, furthest⟩

/-- A reading that makes nodes and leaves tokens. -/
def done (nodes : List Node) (rest : List Token) (furthest : Nat) : Reading :=
  ⟨some (nodes, rest), furthest⟩

/-- The same reading with its nodes changed. -/
def mapNodes (reading : Reading) (change : List Node → List Node) : Reading :=
  { reading with result := reading.result.map fun (nodes, rest) => (change nodes, rest) }

end Reading

/-- The offset of the next token, or else `furthest`. -/
def lookedAt (tokens : List Token) (furthest : Nat) : Nat :=
  match tokens with
  | [] => furthest
  | token :: _ => max furthest token.start

/-- Reads one token that passes a test and makes a leaf of it. -/
def readToken (test : Token → Bool) (leaf : Token → Node) (tokens : List Token)
    (furthest : Nat) : Reading :=
  match tokens with
  | [] => .fail furthest
  | token :: rest =>
      let furthest := max furthest token.start
      if test token then .done [leaf token] rest furthest else .fail furthest

/-- The end of the tokens of some texts that follow `stop` without gaps, and the
tokens that are left. -/
def readGlued (stop : Nat) : List String → List Token → Option (Nat × List Token)
  | [], tokens => some (stop, tokens)
  | part :: parts, token :: rest =>
      if token.text == part && token.start == stop then readGlued token.stop parts rest
      else none
  | _ :: _, [] => none

/-- The node of some symbol over its parts; without parts there is none. -/
def gather (type : String) (parts : List Node) : List Node :=
  match parts, parts.getLast? with
  | first :: _, some last => [⟨type, first.start, last.stop, true, false, none, parts⟩]
  | _, _ => []

/-- Nodes in a role of the node around them. -/
def assign (role : Option String) (nodes : List Node) : List Node :=
  match role with
  | some name => nodes.map fun node => { node with field := some name }
  | none => nodes

/-- Whether the left part of a step is one node of one of some symbols. -/
def leftMatches (types : List String) (left : List Node) : Bool :=
  match left with
  | [node] => types.contains node.type
  | _ => false

/-- Reads tokens by a rule of a grammar, going at most `depth` rules deep.  Where
the rule is a step, `left` is what it grows. -/
def run {σ : Type} (rules : σ → Rule σ) :
    Nat → Rule σ → List Node → List Token → Nat → Reading
  | 0, _, _, _, furthest => .fail furthest
  | depth + 1, rule, left, tokens, furthest =>
      match rule with
      | .nothing => .done [] tokens furthest
      | .token type => readToken (·.type == type) Token.leaf tokens furthest
      | .renamed type as =>
          readToken (·.type == type)
            (fun token => { token.leaf with type := as, named := true }) tokens furthest
      | .word text =>
          readToken (fun token => token.type == "identifier" && token.text == text)
            (fun token => { token.leaf with type := text, named := false }) tokens furthest
      | .glued type parts =>
          let furthest := lookedAt tokens furthest
          match tokens with
          | [] => .fail furthest
          | token :: _ =>
              match readGlued token.start parts tokens with
              | some (stop, rest) =>
                  .done [⟨type, token.start, stop, false, false, none, []⟩] rest furthest
              | none => .fail furthest
      | .symbol name => run rules depth (rules name) left tokens furthest
      | .seq first second =>
          match run rules depth first left tokens furthest with
          | ⟨none, furthest⟩ => .fail furthest
          | ⟨some (nodes, rest), furthest⟩ =>
              (run rules depth second left rest furthest).mapNodes (nodes ++ ·)
      | .alt first second =>
          match run rules depth first left tokens furthest with
          | ⟨none, furthest⟩ => run rules depth second left tokens furthest
          | reading => reading
      | .many item =>
          match run rules depth item left tokens furthest with
          | ⟨none, furthest⟩ => .done [] tokens furthest
          | ⟨some (nodes, rest), furthest⟩ =>
              (run rules depth (.many item) left rest furthest).mapNodes (nodes ++ ·)
      | .ahead item =>
          match run rules depth item left tokens furthest with
          | ⟨none, furthest⟩ => .fail furthest
          | ⟨some _, furthest⟩ => .done [] tokens furthest
      | .field name item =>
          (run rules depth item left tokens furthest).mapNodes (assign (some name))
      | .node type item =>
          (run rules depth item [] tokens furthest).mapNodes (gather type)
      | .grow base step =>
          match run rules depth base left tokens furthest with
          | ⟨none, furthest⟩ => .fail furthest
          | ⟨some (nodes, rest), furthest⟩ => grow rules depth step nodes rest furthest
      | .wrap type role item =>
          (run rules depth item [] tokens furthest).mapNodes fun nodes =>
            gather type (assign role left ++ nodes)
      | .leftIs types =>
          if leftMatches types left then .done [] tokens furthest else .fail furthest
where
  /-- Grows what has been read by a step as often as the step succeeds. -/
  grow (rules : σ → Rule σ) :
      Nat → Rule σ → List Node → List Token → Nat → Reading
    | 0, _, left, tokens, furthest => .done left tokens furthest
    | depth + 1, step, left, tokens, furthest =>
        match run rules depth step left tokens furthest with
        | ⟨none, furthest⟩ => .done left tokens furthest
        | ⟨some (nodes, rest), furthest⟩ => grow rules depth step nodes rest furthest

end Grammar
end JavaSketch
