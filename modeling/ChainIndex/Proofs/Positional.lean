import Mathlib.Data.List.Basic

/-!
# Reading by position

The library takes lists apart by their shape. The arguments of a call and the topics of an event are
documented by their positions, though, and reading a list by position goes wrong where it is too
short, as calculating goes wrong where a result does not fit its counter. The functions here say so.
What else is in this namespace is a function of the library that reads by position and calculates
with counters, under the name that it has there; a theorem says that it never goes wrong, whatever
it is given, and that it agrees with its namesake.

A position that is asked for as an optional value cannot go wrong, and is left as it is. Where a sum
is checked, one that does not fit its counter is none (`sum?`); where nothing is checked, reading
goes wrong (`minus`), and it has to be shown that this does not happen.
-/

namespace ChainIndex.Positional

/-- How reading by position goes wrong. -/
inductive Misread where
  /-- The list does not have the position. -/
  | missing
  /-- The number does not fit its counter. -/
  | overflow
deriving Repr, DecidableEq

variable {α β : Type}

/-- What reads on from a value. -/
@[simp]
theorem ok_bind (a : α) (next : α → Except Misread β) : (Except.ok a >>= next) = next a :=
  rfl

@[simp]
theorem pure_eq_ok (a : α) : (pure a : Except Misread α) = .ok a :=
  rfl

/-- Reading by position goes right, and its value has a property. -/
def Succeeds (c : Except Misread α) (P : α → Prop) : Prop :=
  ∃ a, c = .ok a ∧ P a

theorem Succeeds.ok {a : α} {P : α → Prop} (h : P a) : Succeeds (.ok a) P :=
  ⟨a, rfl, h⟩

theorem Succeeds.of_eq {c : Except Misread α} {a : α} {P : α → Prop} (hc : c = .ok a) (h : P a) :
    Succeeds c P :=
  ⟨a, hc, h⟩

/-- Reading on goes right if both parts do. -/
theorem Succeeds.bind {c : Except Misread α} {next : α → Except Misread β} {P : α → Prop}
    {Q : β → Prop} (h : Succeeds c P) (hnext : ∀ a, P a → Succeeds (next a) Q) :
    Succeeds (c >>= next) Q := by
  obtain ⟨a, rfl, ha⟩ := h
  exact hnext a ha

/-! ### Positions

Each of these goes wrong exactly where the list is too short. The equations below are for where it
is known to be long enough, which in a reader is a look at the length some lines above. -/

/-- The element at a position. -/
def get (xs : List α) (i : Nat) : Except Misread α :=
  match xs[i]? with
  | some x => .ok x
  | none => .error .missing

@[simp]
theorem get_cons_zero (x : α) (xs : List α) : get (x :: xs) 0 = .ok x :=
  rfl

@[simp]
theorem get_cons_succ (x : α) (xs : List α) (i : Nat) : get (x :: xs) (i + 1) = get xs i := by
  unfold get
  rw [List.getElem?_cons_succ]

/-- The list with the element at a position changed. -/
def modify (xs : List α) (i : Nat) (f : α → α) : Except Misread (List α) :=
  if i < xs.length then .ok (xs.modify i f) else .error .missing

/-- The elements from a position on. -/
def back (xs : List α) (i : Nat) : Except Misread (List α) :=
  if i ≤ xs.length then .ok (xs.drop i) else .error .missing

theorem back_of_le {xs : List α} {i : Nat} (h : i ≤ xs.length) : back xs i = .ok (xs.drop i) :=
  if_pos h

/-- The elements from a position to another one. -/
def slice (xs : List α) (i j : Nat) : Except Misread (List α) :=
  if i ≤ j ∧ j ≤ xs.length then .ok ((xs.drop i).take (j - i)) else .error .missing

theorem slice_of_le {xs : List α} {i j : Nat} (hij : i ≤ j) (hj : j ≤ xs.length) :
    slice xs i j = .ok ((xs.drop i).take (j - i)) :=
  if_pos ⟨hij, hj⟩

/-- The elements in front of a position. -/
def front (xs : List α) (i : Nat) : Except Misread (List α) :=
  slice xs 0 i

theorem front_of_le {xs : List α} {i : Nat} (h : i ≤ xs.length) : front xs i = .ok (xs.take i) :=
  slice_of_le (Nat.zero_le i) h

/-- The elements in groups of a size. What is left over is in no group. -/
def groups (size : Nat) (xs : List α) : List (List α) :=
  (List.range (xs.length / size)).map fun i => (xs.drop (size * i)).take size

theorem groups_of_length_lt {size : Nat} {xs : List α} (h : xs.length < size) :
    groups size xs = [] := by
  rw [groups, Nat.div_eq_of_lt h, List.range_zero, List.map_nil]

theorem groups_append {size : Nat} (hsize : 0 < size) (xs ys : List α) (hxs : xs.length = size) :
    groups size (xs ++ ys) = xs :: groups size ys := by
  subst hxs
  have hlength : (xs ++ ys).length / xs.length = ys.length / xs.length + 1 := by
    rw [List.length_append, Nat.add_comm, Nat.add_div_right _ hsize]
  rw [groups, hlength, List.range_succ_eq_map, List.map_cons, List.map_map, Nat.mul_zero,
    List.drop_zero, List.take_left]
  refine congrArg (xs :: ·) (List.map_congr_left fun i _ => ?_)
  rw [Function.comp_apply, Nat.mul_succ, Nat.add_comm, List.drop_append,
    List.drop_eq_nil_of_le (Nat.le_add_right _ _), List.nil_append, Nat.add_sub_cancel_left]

/-- Reading goes right for a list if it does for each element. -/
theorem mapM_eq_ok {f : α → Except Misread β} {g : α → β} {xs : List α}
    (h : ∀ x ∈ xs, f x = .ok (g x)) : xs.mapM f = .ok (xs.map g) := by
  induction xs with
  | nil => rfl
  | cons x xs ih =>
      rw [List.mapM_cons, h x List.mem_cons_self, ih fun y hy => h y (List.mem_cons_of_mem x hy)]
      rfl

/-- Searching goes right if looking at each element does. -/
theorem findSomeM?_eq_ok {f : α → Except Misread (Option β)} {g : α → Option β} {xs : List α}
    (h : ∀ x ∈ xs, f x = .ok (g x)) : xs.findSomeM? f = .ok (xs.findSome? g) := by
  induction xs with
  | nil => rfl
  | cons x xs ih =>
      rw [List.findSomeM?, h x List.mem_cons_self, ok_bind, List.findSome?_cons]
      cases g x with
      | none => exact ih fun y hy => h y (List.mem_cons_of_mem x hy)
      | some b => rfl

/-- Reading on from one element to the next goes right if each step does. -/
theorem foldlM_eq_ok {f : β → α → Except Misread β} {g : β → α → β}
    (h : ∀ b a, f b a = .ok (g b a)) (xs : List α) (b : β) :
    xs.foldlM f b = .ok (xs.foldl g b) := by
  induction xs generalizing b with
  | nil => rfl
  | cons x xs ih => rw [List.foldlM_cons, h, ok_bind, ih, List.foldl_cons]

/-! ### Counters -/

/-- The numbers that a counter shows are below this one. -/
def counterLimit : Nat := 0x10000000000000000

/-- The sum, if a counter shows it. -/
def sum? (m n : Nat) : Option Nat :=
  if m + n < counterLimit then some (m + n) else none

/-- The product, if a counter shows it. -/
def product? (m n : Nat) : Option Nat :=
  if m * n < counterLimit then some (m * n) else none

theorem product?_bind_sum? (k m n : Nat) :
    ((product? k m).bind fun p => sum? p n) =
      if k * m + n < counterLimit then some (k * m + n) else none := by
  unfold product? sum?
  by_cases h : k * m < counterLimit
  · rw [if_pos h, Option.bind_some]
  · rw [if_neg h, if_neg fun hsum => h (Nat.lt_of_le_of_lt (Nat.le_add_right _ n) hsum)]
    rfl

/-- What is left of a number. -/
def minus (m n : Nat) : Except Misread Nat :=
  if n ≤ m then .ok (m - n) else .error .overflow

theorem minus_of_le {m n : Nat} (h : n ≤ m) : minus m n = .ok (m - n) :=
  if_pos h

end ChainIndex.Positional
