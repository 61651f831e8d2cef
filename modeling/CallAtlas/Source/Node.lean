/-!
# Concrete syntax trees

A grammar answers a source text with a tree of nodes.  A node has a type, the span of bytes it
covers, and children, some of which are named or play a field of their parent.
-/

namespace CallAtlas.Source

/-- A node of a concrete syntax tree.  `start` and `stop` are offsets into the UTF-8 bytes of the
source text. -/
inductive Node where
  | mk (type : String) (named : Bool) (field : Option String) (start stop : Nat)
    (children : List Node)
deriving Repr, Nonempty

namespace Node

/-- What the node is. -/
def type : Node → String
  | mk type _ _ _ _ _ => type

/-- Whether the grammar gives the node a name of its own, unlike punctuation and keywords. -/
def named : Node → Bool
  | mk _ named _ _ _ _ => named

/-- The field of the parent that the node plays. -/
def field : Node → Option String
  | mk _ _ field _ _ _ => field

/-- Offset of the first byte. -/
def start : Node → Nat
  | mk _ _ _ start _ _ => start

/-- Offset behind the last byte. -/
def stop : Node → Nat
  | mk _ _ _ _ stop _ => stop

/-- The nodes directly below, in order. -/
def children : Node → List Node
  | mk _ _ _ _ _ children => children

/-- The named nodes directly below. -/
def namedChildren (n : Node) : List Node :=
  n.children.filter named

/-- The first child that plays the field `name`. -/
def child? (n : Node) (name : String) : Option Node :=
  n.children.find? fun c => c.field == some name

/-- The first child of a given type. -/
def childOfType? (n : Node) (type : String) : Option Node :=
  n.children.find? fun c => c.type == type

/-- The children of a given type. -/
def childrenOfType (n : Node) (type : String) : List Node :=
  n.children.filter fun c => c.type == type

/-- Whether some child has a given type. -/
def hasChildOfType (n : Node) (type : String) : Bool :=
  n.children.any fun c => c.type == type

end Node

/-- A grammar's answer: the root of the tree, and whether some part of the text did not fit. -/
structure Tree where
  damaged : Bool
  root : Node
deriving Repr

/-- The tree of a text without declarations. -/
def Tree.empty : Tree :=
  ⟨false, .mk "source_file" true none 0 0 []⟩

/-- The bytes of a source text, in which nodes mark spans. -/
structure Bytes where
  data : ByteArray

namespace Bytes

/-- The bytes of `text`. -/
def ofText (text : String) : Bytes :=
  ⟨text.toUTF8⟩

/-- The text that a node covers. -/
def text (b : Bytes) (n : Node) : String :=
  (String.fromUTF8? (b.data.extract n.start n.stop)).getD ""

/-- The line on which an offset lies, counted from one. -/
def line (b : Bytes) (offset : Nat) : Nat :=
  (b.data.extract 0 offset).toList.count 10 + 1

end Bytes

end CallAtlas.Source
