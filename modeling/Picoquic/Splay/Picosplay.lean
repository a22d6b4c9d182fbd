import Picoquic.ForMathlib.PointerTree

/-!
# The splay tree of `picosplay.c`

The functions of the source on nodes that point to their parent and to their children. A `NULL`
pointer is `none`; a function that follows one, or whose loops need more rounds than they are
given, has no result. What a node is the node of, and how values compare, are parameters.

* **`rotate`**, **`splay`** — a node moves to the root;
* **`insert`**, **`find`**, **`findPrevious`**, **`delete`**, **`deleteHint`** — the operations;
* **`first`**, **`next`**, **`traverse`** — the nodes from left to right.
-/

namespace Picoquic

/-- `picosplay_tree_t`, with the pointers of all nodes. The comparator and the functions for nodes
and values are parameters of the operations. -/
structure Picosplay (α : Type*) where
  nodes : PointerTree α
  root : Option α
  size : ℤ

namespace Picosplay

variable {α V : Type*} [DecidableEq α]

/-! ### Rotations -/

/-- `mark_gp`. -/
def markGp (T : PointerTree α) (child : α) : Option (PointerTree α) :=
  match T.parent child with
  | none => none
  | some parent =>
    let grand := T.parent parent
    let T := (T.setParent child grand).setParent parent (some child)
    match grand with
    | none => some T
    | some grand =>
      if T.left grand = some parent then some (T.setLeft grand (some child))
      else some (T.setRight grand (some child))

/-- `rotate`: the child takes the place of its parent, which there must be. -/
def rotate (T : PointerTree α) (child : α) : Option (PointerTree α) :=
  match T.parent child with
  | none => none
  | some parent =>
    if T.left parent = some child then
      (markGp T child).map fun T =>
        let T := T.setLeft parent (T.right child)
        let T := T.setParentOf (T.right child) (some parent)
        T.setRight child (some parent)
    else
      (markGp T child).map fun T =>
        let T := T.setRight parent (T.left child)
        let T := T.setParentOf (T.left child) (some parent)
        T.setLeft child (some parent)

/-- `zig`. -/
def zig (T : PointerTree α) (x : α) : Option (PointerTree α) := rotate T x

/-- `zigzig`. -/
def zigzig (T : PointerTree α) (x p : α) : Option (PointerTree α) :=
  (rotate T p).bind fun T => rotate T x

/-- `zigzag`. -/
def zigzag (T : PointerTree α) (x : α) : Option (PointerTree α) :=
  (rotate T x).bind fun T => rotate T x

/-- One round of the loop of `splay`, at a node with the parent `p`. -/
def splayRound (T : PointerTree α) (x p : α) : Option (PointerTree α) :=
  match T.parent p with
  | none => zig T x
  | some g =>
    if (T.left p = some x ∧ T.left g = some p) ∨ (T.right p = some x ∧ T.right g = some p) then
      zigzig T x p
    else zigzag T x

/-- `splay`, in at most `fuel` rounds. -/
def splay : ℕ → Picosplay α → α → Option (Picosplay α)
  | 0, _, _ => none
  | fuel + 1, tree, x =>
    match tree.nodes.parent x with
    | none => some { tree with root := some x }
    | some p =>
      (splayRound tree.nodes x p).bind fun T => splay fuel { tree with nodes := T } x

/-! ### Ways through the tree -/

/-- The loop of `leftmost`. -/
def leftmostLoop (T : PointerTree α) : ℕ → (node parent : Option α) → Option (Option α)
  | 0, _, _ => none
  | _ + 1, none, parent => some parent
  | fuel + 1, some node, _ => leftmostLoop T fuel (T.left node) (some node)

/-- `leftmost`. -/
def leftmost (T : PointerTree α) (fuel : ℕ) (node : Option α) : Option (Option α) :=
  leftmostLoop T fuel node none

/-- `picosplay_first`. -/
def first (fuel : ℕ) (tree : Picosplay α) : Option (Option α) :=
  leftmost tree.nodes fuel tree.root

/-- The loop of `picosplay_next` towards the root. -/
def nextLoop (T : PointerTree α) : ℕ → α → Option (Option α)
  | 0, _ => none
  | fuel + 1, node =>
    match T.parent node with
    | none => some none
    | some parent =>
      if T.right parent = some node then nextLoop T fuel parent else some (some parent)

/-- `picosplay_next`. -/
def next (T : PointerTree α) (fuel : ℕ) (node : α) : Option (Option α) :=
  match T.right node with
  | some right => leftmost T fuel (some right)
  | none => nextLoop T fuel node

/-- The nodes from a given one on, by `picosplay_next`. -/
def traverseFrom (T : PointerTree α) (fuel : ℕ) : ℕ → Option α → Option (List α)
  | _, none => some []
  | 0, some _ => none
  | n + 1, some node =>
    (next T fuel node).bind fun o => (traverseFrom T fuel n o).map fun nodes => node :: nodes

/-- The nodes from `picosplay_first` on, by `picosplay_next`. -/
def traverse (fuel : ℕ) (tree : Picosplay α) : Option (List α) :=
  (first fuel tree).bind fun o => traverseFrom tree.nodes fuel fuel o

/-! ### Operations -/

section Operations

variable (comp : V → V → ℤ) (nodeValue : α → V)

/-- The loop of `picosplay_insert`: the parent of the new node, and on which side it is. -/
def insertLoop (T : PointerTree α) (new : α) :
    ℕ → (curr parent : Option α) → (left : Bool) → Option (Option α × Bool)
  | 0, _, _, _ => none
  | _ + 1, none, parent, left => some (parent, left)
  | fuel + 1, some curr, _, _ =>
    if comp (nodeValue new) (nodeValue curr) < 0 then
      insertLoop T new fuel (T.left curr) (some curr) true
    else insertLoop T new fuel (T.right curr) (some curr) false

/-- The new node is attached to the tree. -/
def attach (fuel : ℕ) (tree : Picosplay α) (new : α) : Option (Picosplay α) :=
  let T := (tree.nodes.setLeft new none).setRight new none
  match tree.root with
  | none => some { tree with nodes := T.setParent new none, root := some new }
  | some root =>
    (insertLoop comp nodeValue T new fuel (some root) none false).bind fun (parent, left) =>
      parent.map fun p =>
        let T := T.setParent new parent
        { tree with nodes := if left then T.setLeft p (some new) else T.setRight p (some new) }

/-- `picosplay_insert`, with the node that `create` returns. -/
def insert (fuel : ℕ) (tree : Picosplay α) (new : Option α) :
    Option (Picosplay α × Option α) :=
  match new with
  | none => some (tree, none)
  | some new =>
    (attach comp nodeValue fuel tree new).bind fun tree =>
      (splay fuel tree new).map fun tree => ({ tree with size := tree.size + 1 }, some new)

/-- The loop of `picosplay_find`. -/
def findLoop (T : PointerTree α) (value : V) : ℕ → Option α → Option (Option α)
  | 0, _ => none
  | _ + 1, none => some none
  | fuel + 1, some curr =>
    if comp value (nodeValue curr) = 0 then some (some curr)
    else if comp value (nodeValue curr) < 0 then findLoop T value fuel (T.left curr)
    else findLoop T value fuel (T.right curr)

/-- `picosplay_find`. -/
def find (fuel : ℕ) (tree : Picosplay α) (value : V) : Option (Picosplay α × Option α) :=
  (findLoop comp nodeValue tree.nodes value fuel tree.root).bind fun
    | none => some (tree, none)
    | some curr => (splay fuel tree curr).map fun tree => (tree, some curr)

/-- The loop of `picosplay_find_previous`. -/
def findPreviousLoop (T : PointerTree α) (value : V) :
    ℕ → (curr previous : Option α) → Option (Option α)
  | 0, _, _ => none
  | _ + 1, none, previous => some previous
  | fuel + 1, some curr, previous =>
    if comp value (nodeValue curr) = 0 then some (some curr)
    else if comp value (nodeValue curr) < 0 then
      findPreviousLoop T value fuel (T.left curr) previous
    else findPreviousLoop T value fuel (T.right curr) (some curr)

/-- `picosplay_find_previous`. -/
def findPrevious (fuel : ℕ) (tree : Picosplay α) (value : V) : Option (Option α) :=
  findPreviousLoop comp nodeValue tree.nodes value fuel tree.root none

/-- The leftmost node `x` on the right of `node` takes its place, up to the pointers to its left
child. -/
def liftLeftmost (T : PointerTree α) (x node : α) : Option (PointerTree α) :=
  if T.parent x = some node then some T
  else
    (T.parent x).bind fun parent =>
      let T := T.setLeft parent (T.right x)
      let T := T.setParentOf (T.right x) (some parent)
      let T := T.setRight x (T.right node)
      (T.right x).map fun right => T.setParent right (some x)

/-- A node that is the root is taken out. -/
def removeRoot (fuel : ℕ) (tree : Picosplay α) (node : α) : Option (Picosplay α) :=
  let T := tree.nodes
  match T.left node, T.right node with
  | none, right => some { tree with nodes := T.setParentOf right none, root := right }
  | some left, none => some { tree with nodes := T.setParent left none, root := some left }
  | some _, some right =>
    (leftmost T fuel (some right)).bind fun x => x.bind fun x =>
      (liftLeftmost T x node).bind fun T =>
        let T := T.setParent x none
        let T := T.setLeft x (T.left node)
        (T.left x).map fun left =>
          { tree with nodes := T.setParent left (some x), root := some x }

/-- `picosplay_delete_hint`. -/
def deleteHint (fuel : ℕ) (tree : Picosplay α) (node : Option α) : Option (Picosplay α) :=
  match node with
  | none => some tree
  | some node =>
    (splay fuel tree node).bind fun tree =>
      (removeRoot fuel tree node).map fun tree => { tree with size := tree.size - 1 }

/-- `picosplay_delete`. The node that was found is returned too: it is the one that is given to
`delete_node`. -/
def delete (fuel : ℕ) (tree : Picosplay α) (value : V) : Option (Picosplay α × Option α) :=
  (find comp nodeValue fuel tree value).bind fun (tree, node) =>
    (deleteHint fuel tree node).map fun tree => (tree, node)

end Operations

end Picosplay

end Picoquic
