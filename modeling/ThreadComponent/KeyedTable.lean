import Mathlib.Data.List.Basic
import Mathlib.Logic.Function.Basic

/-!
# Tables with keys

A table is a list of entries that is searched for a key before an entry is added, so that no key
stands in it twice. A map is a function from keys to what is stored under them; a nested map has a
map of its own under each key. Writing the entries of a table into an empty map gives what the
table says.
-/

set_option autoImplicit false
set_option linter.unusedSectionVars false

namespace KeyedTable

universe u v w

/-! ## Tables -/

section Table
variable {K : Type u} {V : Type v} [DecidableEq K]

def lookup (k : K) : List (K × V) → Option V
  | [] => none
  | (key, value) :: rest => if key = k then some value else lookup k rest

/-- The entry with the key is changed where there is one, and added at the end otherwise. -/
def store (k : K) (v : V) : List (K × V) → List (K × V)
  | [] => [(k, v)]
  | (key, value) :: rest => if key = k then (key, v) :: rest else (key, value) :: store k v rest

def storeAll (writes : List (K × V)) (table : List (K × V)) : List (K × V) :=
  writes.foldl (fun table entry => store entry.1 entry.2 table) table

def last (k : K) : List (K × V) → Option V
  | [] => none
  | (key, value) :: rest => (last k rest).or (if key = k then some value else none)

def Keyed (table : List (K × V)) : Prop := (table.map Prod.fst).Nodup

variable {k l : K} {v : V} {table : List (K × V)}

theorem lookup_store : lookup l (store k v table) = if k = l then some v else lookup l table := by
  induction table with
  | nil => rfl
  | cons entry rest ih =>
    obtain ⟨key, value⟩ := entry
    rw [store]
    by_cases hkey : key = k
    · subst hkey
      rw [if_pos rfl, lookup, lookup]
      by_cases hl : key = l
      · rw [if_pos hl, if_pos hl]
      · rw [if_neg hl, if_neg hl, if_neg hl]
    · rw [if_neg hkey, lookup, lookup, ih]
      by_cases hl : key = l
      · rw [if_pos hl, if_pos hl, if_neg fun hk => hkey (hl.trans hk.symm)]
      · rw [if_neg hl, if_neg hl]

theorem mem_keys_store : l ∈ (store k v table).map Prod.fst ↔ l = k ∨ l ∈ table.map Prod.fst := by
  induction table with
  | nil => simp [store]
  | cons entry rest ih =>
    obtain ⟨key, value⟩ := entry
    rw [store]
    by_cases hkey : key = k
    · rw [if_pos hkey, List.map_cons, List.map_cons, List.mem_cons, hkey]
      constructor
      · exact .inr
      · rintro (rfl | hmem)
        · exact .inl rfl
        · exact hmem
    · rw [if_neg hkey, List.map_cons, List.map_cons, List.mem_cons, List.mem_cons, ih]
      exact or_left_comm

theorem Keyed.store (h : Keyed table) : Keyed (store k v table) := by
  induction table with
  | nil => exact List.nodup_cons.mpr ⟨List.not_mem_nil, List.nodup_nil⟩
  | cons entry rest ih =>
    obtain ⟨key, value⟩ := entry
    obtain ⟨hnot, hrest⟩ := List.nodup_cons.mp h
    rw [KeyedTable.store]
    by_cases hkey : key = k
    · rw [if_pos hkey]
      exact h
    · rw [if_neg hkey]
      refine List.nodup_cons.mpr ⟨fun hmem => ?_, ih hrest⟩
      rcases mem_keys_store.mp hmem with heq | hmem
      · exact hkey heq
      · exact hnot hmem

theorem Keyed.storeAll (h : Keyed table) (writes : List (K × V)) :
    Keyed (storeAll writes table) := by
  induction writes generalizing table with
  | nil => exact h
  | cons entry rest ih => exact ih h.store

theorem storeAll_append (writes later : List (K × V)) :
    storeAll (writes ++ later) table = storeAll later (storeAll writes table) :=
  List.foldl_append

/-- The last writer of a key wins. -/
theorem lookup_storeAll (writes : List (K × V)) :
    lookup k (storeAll writes table) = (last k writes).or (lookup k table) := by
  induction writes generalizing table with
  | nil => rfl
  | cons entry rest ih =>
    obtain ⟨key, value⟩ := entry
    change lookup k (storeAll rest (store key value table)) = _
    rw [ih, lookup_store, last, Option.or_assoc]
    by_cases hkey : key = k
    · rw [if_pos hkey, if_pos hkey, Option.some_or]
    · rw [if_neg hkey, if_neg hkey, Option.none_or]

theorem mem_keys_storeAll {writes : List (K × V)} :
    k ∈ (storeAll writes table).map Prod.fst ↔
      k ∈ writes.map Prod.fst ∨ k ∈ table.map Prod.fst := by
  induction writes generalizing table with
  | nil => simp [storeAll]
  | cons entry rest ih =>
    change k ∈ (storeAll rest (store entry.1 entry.2 table)).map Prod.fst ↔ _
    rw [ih, mem_keys_store, List.map_cons, List.mem_cons, or_assoc, or_left_comm]

/-- The table has one entry for each key that is written, with what was last written there. -/
def LastWriterWins (writes table : List (K × V)) : Prop :=
  Keyed table ∧ ∀ k, lookup k table = last k writes

theorem lastWriterWins_storeAll (writes : List (K × V)) :
    LastWriterWins writes (storeAll writes []) := by
  have hempty : Keyed ([] : List (K × V)) := List.nodup_nil
  refine ⟨hempty.storeAll writes, fun k => ?_⟩
  rw [lookup_storeAll]
  exact Option.or_none

theorem lookup_map {W : Type w} (f : V → W) :
    lookup k (table.map fun entry => (entry.1, f entry.2)) = (lookup k table).map f := by
  induction table with
  | nil => rfl
  | cons entry rest ih =>
    obtain ⟨key, value⟩ := entry
    rw [List.map_cons, lookup, lookup, ih]
    by_cases hkey : key = k
    · rw [if_pos hkey, if_pos hkey, Option.map_some]
    · rw [if_neg hkey, if_neg hkey]

theorem Keyed.map {W : Type w} (h : Keyed table) (f : V → W) :
    Keyed (table.map fun entry => (entry.1, f entry.2)) := by
  rw [Keyed, List.map_map]
  exact h

theorem lookup_eq_none_iff : lookup k table = none ↔ k ∉ table.map Prod.fst := by
  induction table with
  | nil => simp [lookup]
  | cons entry rest ih =>
    obtain ⟨key, value⟩ := entry
    rw [lookup]
    by_cases hkey : key = k
    · simp [hkey]
    · rw [if_neg hkey, ih, List.map_cons, List.mem_cons, not_or]
      exact ⟨fun h => ⟨Ne.symm hkey, h⟩, And.right⟩

end Table

/-! ## Maps -/

section Map
variable {K : Type u} {L : Type w} {V : Type v} [DecidableEq K] [DecidableEq L]

/-- `map[k] = v` -/
def assign (map : K → Option V) (k : K) (v : V) : K → Option V := Function.update map k (some v)

def assignAll (map : K → Option V) (table : List (K × V)) : K → Option V :=
  table.foldl (fun map entry => assign map entry.1 entry.2) map

theorem assignAll_apply {table : List (K × V)} (h : Keyed table) (map : K → Option V) (k : K) :
    assignAll map table k = (lookup k table).or (map k) := by
  induction table generalizing map with
  | nil => rfl
  | cons entry rest ih =>
    obtain ⟨key, value⟩ := entry
    obtain ⟨hnot, hrest⟩ := List.nodup_cons.mp h
    change assignAll (assign map key value) rest k = _
    rw [ih hrest, lookup]
    by_cases hkey : key = k
    · subst hkey
      rw [if_pos rfl, lookup_eq_none_iff.mpr hnot, assign, Function.update_self]
      rfl
    · rw [if_neg hkey, assign, Function.update_of_ne (Ne.symm hkey)]

/-- Written into an empty map, the table says what was last written into the table. -/
theorem LastWriterWins.assignAll {W : Type*} {writes table : List (K × V)}
    (h : LastWriterWins writes table) (f : V → W) (k : K) :
    assignAll (fun _ => none) (table.map fun entry => (entry.1, f entry.2)) k =
      (last k writes).map f := by
  rw [assignAll_apply (h.1.map f), lookup_map, h.2 k]
  exact Option.or_none

/-- `map[k][l] = v`: `map[k]` is made empty where it is missing. -/
def assignAt (map : K → Option (L → Option V)) (k : K) (l : L) (v : V) :
    K → Option (L → Option V) :=
  assign map k (assign ((map k).getD fun _ => none) l v)

def flat (map : K → Option (L → Option V)) (k : K × L) : Option V := (map k.1).bind (· k.2)

theorem flat_assignAt (map : K → Option (L → Option V)) (k : K) (l : L) (v : V) :
    flat (assignAt map k l v) = assign (flat map) (k, l) v := by
  funext p
  obtain ⟨k', l'⟩ := p
  by_cases hk : k' = k
  · subst hk
    have hinner : flat (assignAt map k' l v) (k', l') =
        assign ((map k').getD fun _ => none) l v l' := by
      rw [flat, assignAt, assign, Function.update_self]
      rfl
    rw [hinner]
    by_cases hl : l' = l
    · subst hl
      rw [assign, assign, Function.update_self, Function.update_self]
    · rw [assign, assign, Function.update_of_ne hl,
        Function.update_of_ne fun heq => hl (Prod.mk.inj heq).2, flat]
      cases map k' <;> rfl
  · rw [assign, Function.update_of_ne fun heq => hk (Prod.mk.inj heq).1, flat, flat, assignAt,
      assign, Function.update_of_ne hk]

def Filled (map : K → Option (L → Option V)) : Prop :=
  ∀ k, (map k).isSome → ∃ l, (flat map (k, l)).isSome

theorem Filled.assignAt {map : K → Option (L → Option V)} (h : Filled map) (k : K) (l : L)
    (v : V) : Filled (assignAt map k l v) := by
  intro k' hk'
  by_cases hk : k' = k
  · subst hk
    refine ⟨l, ?_⟩
    rw [flat_assignAt, assign, Function.update_self]
    rfl
  · rw [KeyedTable.assignAt, assign, Function.update_of_ne hk] at hk'
    obtain ⟨l', hl'⟩ := h k' hk'
    refine ⟨l', ?_⟩
    rwa [flat_assignAt, assign, Function.update_of_ne fun heq => hk (Prod.mk.inj heq).1]

end Map

end KeyedTable
