import ChainIndex.Account.Build
import ChainIndex.Proofs.Positional
import ChainIndex.Proofs.Table
import Mathlib.Logic.Function.Basic

/-!
# Registries by position

A registry can keep the position of each key beside its tokens, so that a token is replaced without
a search. Such a position is always one of the list (`IndexedRegistry.add_ofRegistry`).

What is kept through all additions is that the positions are those of the keys. It is kept because a
token is replaced only by one with its key, and a new one is put at the end, where it moves no
other.
-/

namespace ChainIndex.Positional

/-- Tokens in order, and the position of the token that has a key. -/
structure IndexedRegistry where
  entries : List TokenRecord
  position? : String → Option Nat

namespace IndexedRegistry

/-- Adds a token, over any token with the same key. -/
def add (x : IndexedRegistry) (t : TokenRecord) : Except Misread IndexedRegistry := do
  match x.position? t.key with
  | some i =>
    let entries ← modify x.entries i fun _ => t
    return { x with entries }
  | none =>
    return ⟨x.entries ++ [t], Function.update x.position? t.key (some x.entries.length)⟩

/-- A registry with the positions of its keys. -/
def ofRegistry (r : Registry) : IndexedRegistry :=
  ⟨r.entries, fun key => (r.entries.map TokenRecord.key).idxOf? key⟩

variable {t : TokenRecord} {ts : List TokenRecord} {i : Nat}

/-- A token is put where its key stands. -/
theorem put_of_idxOf?_eq_some (h : (ts.map TokenRecord.key).idxOf? t.key = some i) :
    i < ts.length ∧ Registry.put t ts = ts.modify i (fun _ => t) ∧
      (Registry.put t ts).map TokenRecord.key = ts.map TokenRecord.key := by
  induction ts generalizing i with
  | nil => exact nomatch h
  | cons u ts ih =>
      rw [List.map_cons, List.idxOf?_cons] at h
      by_cases hkey : u.key = t.key
      · rw [if_pos (beq_iff_eq.mpr hkey)] at h
        cases h
        rw [Registry.put, if_pos hkey, List.map_cons, List.map_cons, hkey]
        exact ⟨Nat.succ_pos _, rfl, rfl⟩
      · rw [if_neg (mt beq_iff_eq.mp hkey)] at h
        obtain ⟨j, hj, rfl⟩ := Option.map_eq_some_iff.mp h
        obtain ⟨hlt, hput, hkeys⟩ := ih hj
        rw [Registry.put, if_neg hkey, List.map_cons, List.map_cons, hkeys, hput]
        exact ⟨Nat.succ_lt_succ hlt, rfl, rfl⟩

/-- A token with a new key is put at the end. -/
theorem put_of_not_mem (h : t.key ∉ ts.map TokenRecord.key) : Registry.put t ts = ts ++ [t] := by
  induction ts with
  | nil => rfl
  | cons u ts ih =>
      rw [List.map_cons, List.mem_cons, not_or] at h
      rw [Registry.put, if_neg (Ne.symm h.1), ih h.2, List.cons_append]

/-- Adding a token goes right, and the positions stay those of the keys. -/
theorem add_ofRegistry (r : Registry) (t : TokenRecord) :
    (ofRegistry r).add t = .ok (ofRegistry (r.add t)) := by
  unfold add ofRegistry
  dsimp only
  cases hposition : (r.entries.map TokenRecord.key).idxOf? t.key with
  | some i =>
      obtain ⟨hlt, hput, hkeys⟩ := put_of_idxOf?_eq_some hposition
      dsimp only
      rw [modify, if_pos hlt, ok_bind, pure_eq_ok, Registry.add]
      dsimp only
      rw [hkeys, hput]
  | none =>
      have hnew := List.idxOf?_eq_none_iff.mp hposition
      dsimp only [Registry.add]
      rw [put_of_not_mem hnew, pure_eq_ok, List.map_append]
      refine congrArg (fun p => Except.ok (IndexedRegistry.mk _ p)) (funext fun key => ?_)
      rw [List.idxOf?, List.findIdx?_append, ← List.idxOf?]
      by_cases hkey : key = t.key
      · subst hkey
        rw [Function.update_self, hposition]
        simp
      · rw [Function.update_of_ne hkey]
        simp [Ne.symm hkey]

/-- Adding tokens one after another goes right. -/
theorem foldlM_add (ts : List TokenRecord) (r : Registry) :
    ts.foldlM add (ofRegistry r) = .ok (ofRegistry (ts.foldl Registry.add r)) := by
  induction ts generalizing r with
  | nil => rfl
  | cons t ts ih => rw [List.foldlM_cons, add_ofRegistry, ok_bind, ih, List.foldl_cons]

end IndexedRegistry

end ChainIndex.Positional
