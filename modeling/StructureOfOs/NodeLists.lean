import Mathlib.Data.List.Nodup

/-!
A list whose elements lie in nodes, as C++'s `std::list`, with iterators that name a node. An
iterator outlives the element that it points at, so reading through one, and taking the element
before the end of a list that has none, can go wrong. Where it points at an element, the list
is split there, and every operation is described by that.
-/
namespace StructureOfOs.NodeLists

/-- Nodes with names of their own, which later ones do not get again. -/
structure Nodes (α : Type) where
  cells : List (Nat × α)
  fresh : Nat
  distinct : (cells.map Prod.fst).Nodup
  below : ∀ name ∈ cells.map Prod.fst, name < fresh
/-- A node's name, or `none` for the end. -/
abbrev Iterator := Option Nat
/-- An element is read or written at the end, or after it has been erased, or the end of a list without
    elements is moved back. -/
inductive Misuse
  | end_
  | erased
  | empty
deriving DecidableEq, Repr

variable {α : Type}

/-- The iterator at the head of some cells. -/
def first (cells : List (Nat × α)) : Iterator := cells.head?.map Prod.fst
/-- The cells before a node, its element, and the cells after it. -/
def locate (name : Nat) : List (Nat × α) → Option (List (Nat × α) × α × List (Nat × α))
  | [] => none
  | c :: cells =>
    if c.1 = name then some ([],c.2,cells) else (locate name cells).map fun (front,a,back) => (c :: front,a,back)

namespace Nodes
variable (l : Nodes α)

def values : List α := l.cells.map Prod.snd
def size : Nat := l.cells.length
def begin_ : Iterator := first l.cells
def at_ (it : Iterator) : Except Misuse (List (Nat × α) × α × List (Nat × α)) :=
  match it with
  | none => .error .end_
  | some name =>
    match locate name l.cells with
    | none => .error .erased
    | some parts => .ok parts
def deref (it : Iterator) : Except Misuse α := (l.at_ it).map fun parts => parts.2.1
def next (it : Iterator) : Except Misuse Iterator := (l.at_ it).map fun parts => first parts.2.2
/-- `end()--` -/
def last : Except Misuse Iterator :=
  match l.cells.getLast? with
  | none => .error .empty
  | some c => .ok (some c.1)
def write (it : Iterator) (f : α → α) : Except Misuse (Nodes α) :=
  (l.at_ it).map fun _ =>
    ⟨l.cells.map fun c => if it = some c.1 then (c.1,f c.2) else c,l.fresh,
      by
        have names : (l.cells.map fun c => if it = some c.1 then (c.1,f c.2) else c).map Prod.fst = l.cells.map Prod.fst := by
          rw [List.map_map]
          apply List.map_congr_left
          intro c _
          dsimp only [Function.comp]
          split <;> rfl
        rw [names]
        exact l.distinct,
      by
        intro name among
        refine l.below name ?_
        rw [List.map_map] at among
        obtain ⟨c,there,rfl⟩ := List.mem_map.mp among
        refine List.mem_map.mpr ⟨c,there,?_⟩
        dsimp only [Function.comp]
        split <;> rfl⟩
/-- The iterator behind the element that is erased comes with the list. -/
def erase (it : Iterator) : Except Misuse (Iterator × Nodes α) :=
  (l.at_ it).map fun parts =>
    (first parts.2.2,⟨l.cells.filter fun c => it ≠ some c.1,l.fresh,
      l.distinct.sublist (List.filter_sublist.map Prod.fst),
      fun name among => l.below name ((List.filter_sublist.map Prod.fst).subset among)⟩)
def push_back (a : α) : Nodes α :=
  ⟨l.cells ++ [(l.fresh,a)],l.fresh + 1,
    by
      rw [List.map_append]
      refine List.Nodup.append l.distinct (List.nodup_singleton _) ?_
      intro name before here
      have same : name = l.fresh := by simpa using here
      exact Nat.lt_irrefl _ (same ▸ l.below name before),
    by
      intro name among
      rw [List.map_append] at among
      rcases List.mem_append.mp among with before | here
      · exact Nat.lt_succ_of_lt (l.below name before)
      · have same : name = l.fresh := by simpa using here
        rw [same]
        exact Nat.lt_succ_self _⟩
def pop_back : Except Misuse (Nodes α) :=
  if l.cells = [] then .error .empty
  else .ok ⟨l.cells.dropLast,l.fresh,l.distinct.sublist ((List.dropLast_sublist _).map Prod.fst),
    fun name among => l.below name (((List.dropLast_sublist _).map Prod.fst).subset among)⟩
end Nodes

variable {l : Nodes α} {name : Nat} {a : α} {front back : List (Nat × α)}

variable {l' : Nodes α} {it it' : Iterator}

end StructureOfOs.NodeLists
