/-!
# Tables

Finite maps, kept as a list of entries in strictly increasing order of their keys, so that
two tables with the same contents are equal and a walk over a table has one order.

* `Table κ ν`; `get?`, `insert`, `erase`, `modify`, `mapVal`, `mapKeyed`; `keys`, `values`, `size`;
* `get?_insert`, `get?_erase`, `get?_modify`, `get?_mapVal`, `get?_mapKeyed`: what each operation
  does to a look-up; `get?_foldl_erase`, `get?_foldl_insert_eq_some_iff`, for a list of them;
* `mem_entries_iff`: the entries are the successful look-ups;
* `entries_perm_of_get?`, `entries_insert_perm`: an entry and the table without it;
* `Table.ext_get?`: a table is determined by its look-ups; `keys_congr`, for the keys alone.
-/

namespace GroundControl

/-- A finite map from `κ` to `ν`: entries in strictly increasing order of their keys. -/
structure Table (κ ν : Type) [LT κ] where
  entries : List (κ × ν)
  sorted : entries.Pairwise fun a b => a.1 < b.1

namespace Table

variable {κ ν μ : Type} [LT κ]

/-- The table without entries. -/
def empty : Table κ ν := ⟨[], .nil⟩

instance : EmptyCollection (Table κ ν) := ⟨empty⟩

instance : Inhabited (Table κ ν) := ⟨∅⟩

instance [Repr κ] [Repr ν] : Repr (Table κ ν) := ⟨fun t => reprPrec t.entries⟩

instance [DecidableEq κ] [DecidableEq ν] : DecidableEq (Table κ ν) := fun s t =>
  if h : s.entries = t.entries then isTrue (by cases s; cases t; cases h; rfl)
  else isFalse fun e => h (e ▸ rfl)

/-- The keys, in increasing order. -/
def keys (t : Table κ ν) : List κ := t.entries.map (·.1)

/-- The values, in the order of their keys. -/
def values (t : Table κ ν) : List ν := t.entries.map (·.2)

/-- The number of entries. -/
def size (t : Table κ ν) : Nat := t.entries.length

theorem length_keys (t : Table κ ν) : t.keys.length = t.size := List.length_map _

/-- The table with every value replaced. -/
def mapVal (f : ν → μ) (t : Table κ ν) : Table κ μ where
  entries := t.entries.map fun e => (e.1, f e.2)
  sorted := t.sorted.map _ fun _ _ h => h

/-- The table with every value replaced, each by what its key makes of it. -/
def mapKeyed (f : κ → ν → μ) (t : Table κ ν) : Table κ μ where
  entries := t.entries.map fun e => (e.1, f e.1 e.2)
  sorted := t.sorted.map _ fun _ _ h => h

@[simp] theorem size_mapKeyed (f : κ → ν → μ) (t : Table κ ν) : (t.mapKeyed f).size = t.size :=
  List.length_map _

section Search

variable [DecidableEq κ]

/-- The first value with key `k` in a list of entries. -/
def find? (k : κ) : List (κ × ν) → Option ν
  | [] => none
  | (j, v) :: rest => if j = k then some v else find? k rest

/-- The value of a key. -/
def get? (t : Table κ ν) (k : κ) : Option ν := find? k t.entries

/-- Whether a key has a value. -/
def contains (t : Table κ ν) (k : κ) : Bool := (t.get? k).isSome

/-- The table without an entry for `k`. -/
def erase (t : Table κ ν) (k : κ) : Table κ ν where
  entries := t.entries.filter fun e => e.1 ≠ k
  sorted := t.sorted.filter _

@[simp] theorem get?_empty (k : κ) : (∅ : Table κ ν).get? k = none := rfl

omit [LT κ] in
theorem find?_filter_ne (j k : κ) (l : List (κ × ν)) :
    find? j (l.filter fun e => e.1 ≠ k) = if j = k then none else find? j l := by
  induction l with
  | nil => simp [find?]
  | cons e l ih => grind [find?]

@[simp] theorem get?_erase (t : Table κ ν) (j k : κ) :
    (t.erase k).get? j = if j = k then none else t.get? j :=
  find?_filter_ne j k t.entries

/-- Erasing the keys of a list. -/
theorem get?_foldl_erase {α : Type} (g : α → κ) (l : List α) (t : Table κ ν) (k : κ) :
    (l.foldl (fun t a => t.erase (g a)) t).get? k = if k ∈ l.map g then none else t.get? k := by
  induction l generalizing t with
  | nil => simp
  | cons a rest ih =>
    rw [List.foldl_cons, ih, get?_erase]
    by_cases hr : k ∈ rest.map g <;> by_cases ha : k = g a <;> simp [hr, ha]

omit [LT κ] in
theorem find?_map (f : ν → μ) (k : κ) (l : List (κ × ν)) :
    find? k (l.map fun e => (e.1, f e.2)) = (find? k l).map f := by
  induction l with
  | nil => rfl
  | cons e l ih => grind [find?]

@[simp] theorem get?_mapVal (f : ν → μ) (t : Table κ ν) (k : κ) :
    (t.mapVal f).get? k = (t.get? k).map f :=
  find?_map f k t.entries

omit [LT κ] in
theorem find?_map_keyed (f : κ → ν → μ) (k : κ) (l : List (κ × ν)) :
    find? k (l.map fun e => (e.1, f e.1 e.2)) = (find? k l).map (f k) := by
  induction l with
  | nil => rfl
  | cons e l ih => grind [find?]

@[simp] theorem get?_mapKeyed (f : κ → ν → μ) (t : Table κ ν) (k : κ) :
    (t.mapKeyed f).get? k = (t.get? k).map (f k) :=
  find?_map_keyed f k t.entries

omit [LT κ] in
theorem mem_of_find? {k : κ} {v : ν} {l : List (κ × ν)} (h : find? k l = some v) :
    (k, v) ∈ l := by
  induction l with
  | nil => simp [find?] at h
  | cons e l ih => grind [find?]

end Search

section Order

variable [LE κ] [DecidableLT κ] [DecidableEq κ] [Std.IsLinearOrder κ] [Std.LawfulOrderLT κ]

/-- A sorted list of entries with the value of `k` set to `v`. -/
def place (k : κ) (v : ν) : List (κ × ν) → List (κ × ν)
  | [] => [(k, v)]
  | (j, w) :: rest =>
      if k < j then (k, v) :: (j, w) :: rest
      else if j = k then (k, v) :: rest
      else (j, w) :: place k v rest

omit [LE κ] [Std.IsLinearOrder κ] [Std.LawfulOrderLT κ] in
theorem mem_place {k : κ} {v : ν} {e : κ × ν} {l : List (κ × ν)} (h : e ∈ place k v l) :
    e = (k, v) ∨ e ∈ l := by
  induction l with
  | nil => simpa [place] using h
  | cons d l ih => grind [place]

theorem place_sorted (k : κ) (v : ν) {l : List (κ × ν)}
    (h : l.Pairwise fun a b => a.1 < b.1) : (place k v l).Pairwise fun a b => a.1 < b.1 := by
  induction l with
  | nil => simp [place]
  | cons d l ih =>
    obtain ⟨j, w⟩ := d
    obtain ⟨hd, hl⟩ := List.pairwise_cons.1 h
    unfold place
    split
    · rename_i hk
      refine h.cons fun e he => ?_
      rcases List.mem_cons.1 he with rfl | he
      · exact hk
      · exact Std.lt_trans hk (hd _ he)
    · split
      · rename_i hjk
        subst hjk
        exact hl.cons hd
      · rename_i hk hjk
        refine (ih hl).cons fun e he => ?_
        rcases mem_place he with rfl | he
        · rcases Std.lt_trichotomy j k with hlt | heq | hgt
          · exact hlt
          · exact absurd heq hjk
          · exact absurd hgt hk
        · exact hd _ he

/-- The table with the value of `k` set to `v`. -/
def insert (t : Table κ ν) (k : κ) (v : ν) : Table κ ν :=
  ⟨place k v t.entries, place_sorted k v t.sorted⟩

/-- The table with the value of `k`, if it has one, replaced. -/
def modify (t : Table κ ν) (k : κ) (f : ν → ν) : Table κ ν :=
  match t.get? k with
  | none => t
  | some v => t.insert k (f v)

/-- The table of a list of entries; of two with one key the later one stays. -/
def ofList (l : List (κ × ν)) : Table κ ν := l.foldl (fun t e => t.insert e.1 e.2) ∅

omit [LE κ] [Std.IsLinearOrder κ] [Std.LawfulOrderLT κ] in
theorem find?_place (j k : κ) (v : ν) (l : List (κ × ν)) :
    find? j (place k v l) = if j = k then some v else find? j l := by
  induction l with
  | nil => grind [find?, place]
  | cons e l ih => grind [find?, place]

@[simp] theorem get?_insert (t : Table κ ν) (j k : κ) (v : ν) :
    (t.insert k v).get? j = if j = k then some v else t.get? j :=
  find?_place j k v t.entries

/-- Inserting a list of entries with different keys. -/
theorem get?_foldl_insert_eq_some_iff {l : List (κ × ν)} (hl : (l.map Prod.fst).Nodup)
    (t : Table κ ν) {k : κ} {v : ν} :
    (l.foldl (fun t e => t.insert e.1 e.2) t).get? k = some v ↔
      (k, v) ∈ l ∨ k ∉ l.map Prod.fst ∧ t.get? k = some v := by
  induction l generalizing t with
  | nil => simp
  | cons e rest ih =>
    obtain ⟨he, hrest⟩ := List.nodup_cons.1 hl
    rw [List.foldl_cons, ih hrest, get?_insert, List.map_cons, List.mem_cons, List.mem_cons]
    by_cases hk : k = e.1
    · subst hk
      have hm : (e.1, v) ∉ rest := fun hm => he (List.mem_map.2 ⟨_, hm, rfl⟩)
      simp [he, hm, Prod.ext_iff, eq_comm]
    · simp [hk, Prod.ext_iff]

@[simp] theorem get?_modify (t : Table κ ν) (j k : κ) (f : ν → ν) :
    (t.modify k f).get? j = if j = k then (t.get? j).map f else t.get? j := by
  unfold modify
  split <;> by_cases h : j = k <;> simp_all

omit [DecidableLT κ] [Std.IsLinearOrder κ] in
theorem find?_eq_some_iff {k : κ} {v : ν} {l : List (κ × ν)}
    (h : l.Pairwise fun a b => a.1 < b.1) : find? k l = some v ↔ (k, v) ∈ l := by
  refine ⟨mem_of_find?, fun hm => ?_⟩
  induction l with
  | nil => simp at hm
  | cons e l ih =>
    obtain ⟨he, hl⟩ := List.pairwise_cons.1 h
    unfold find?
    rcases List.mem_cons.1 hm with rfl | hm
    · simp
    · split
      · rename_i hk
        have := he _ hm
        rw [hk] at this
        exact absurd this Std.lt_irrefl
      · exact ih hl hm

omit [DecidableLT κ] [Std.IsLinearOrder κ] in
theorem mem_entries_iff {t : Table κ ν} {k : κ} {v : ν} :
    (k, v) ∈ t.entries ↔ t.get? k = some v :=
  (find?_eq_some_iff t.sorted).symm

omit [DecidableLT κ] [Std.IsLinearOrder κ] in
theorem mem_keys_iff {t : Table κ ν} {k : κ} : k ∈ t.keys ↔ t.contains k = true := by
  simp only [keys, List.mem_map, Prod.exists, exists_and_right, exists_eq_right, contains,
    Option.isSome_iff_exists, mem_entries_iff]

omit [DecidableLT κ] [DecidableEq κ] in
private theorem eq_of_mem_iff {l m : List (κ × ν)}
    (hl : l.Pairwise fun a b => a.1 < b.1) (hm : m.Pairwise fun a b => a.1 < b.1)
    (h : ∀ e, e ∈ l ↔ e ∈ m) : l = m := by
  induction l generalizing m with
  | nil =>
    cases m with
    | nil => rfl
    | cons d m => exact absurd ((h d).2 (by simp)) (by simp)
  | cons e l ih =>
    cases m with
    | nil => exact absurd ((h e).1 (by simp)) (by simp)
    | cons d m =>
      obtain ⟨hel, hl⟩ := List.pairwise_cons.1 hl
      obtain ⟨hdm, hm'⟩ := List.pairwise_cons.1 hm
      have hed : e = d := by
        rcases List.mem_cons.1 ((h e).1 (by simp)) with rfl | h1
        · rfl
        rcases List.mem_cons.1 ((h d).2 (by simp)) with rfl | h2
        · rfl
        exact absurd (Std.lt_trans (hdm _ h1) (hel _ h2)) Std.lt_irrefl
      subst hed
      rw [ih hl hm']
      intro x
      constructor
      · intro hx
        rcases List.mem_cons.1 ((h x).1 (List.mem_cons_of_mem _ hx)) with rfl | h1
        · exact absurd (hel _ hx) Std.lt_irrefl
        · exact h1
      · intro hx
        rcases List.mem_cons.1 ((h x).2 (List.mem_cons_of_mem _ hx)) with rfl | h1
        · exact absurd (hdm _ hx) Std.lt_irrefl
        · exact h1

omit [DecidableLT κ] [Std.IsLinearOrder κ] in
theorem entries_perm_of_get? {t : Table κ ν} {k : κ} {v : ν} (h : t.get? k = some v) :
    t.entries.Perm ((k, v) :: (t.erase k).entries) := by
  have hm := mem_of_find? h
  have hs := t.sorted
  show t.entries.Perm ((k, v) :: t.entries.filter fun e => e.1 ≠ k)
  generalize t.entries = l at hm hs
  induction l with
  | nil => cases hm
  | cons d l ih =>
    obtain ⟨hd, hl⟩ := List.pairwise_cons.1 hs
    by_cases hk : d.1 = k
    · have hne : ∀ e ∈ l, e.1 ≠ k := fun e he heq =>
        Std.lt_irrefl (hk ▸ heq ▸ hd e he)
      have hdv : d = (k, v) := by
        rcases List.mem_cons.1 hm with heq | hm
        · exact heq.symm
        · exact absurd rfl (hne _ hm)
      have hf : l.filter (fun e => e.1 ≠ k) = l :=
        List.filter_eq_self.2 fun e he => decide_eq_true (hne e he)
      rw [List.filter_cons_of_neg (by simpa using hk), hf, hdv]
    · have hm : (k, v) ∈ l := by
        rcases List.mem_cons.1 hm with heq | hm
        · exact absurd (congrArg Prod.fst heq).symm hk
        · exact hm
      rw [List.filter_cons_of_pos (by simpa using hk)]
      exact ((ih hm hl).cons d).trans (.swap (k, v) d _)

omit [DecidableLT κ] in
theorem ext_get? {s t : Table κ ν} (h : ∀ k, s.get? k = t.get? k) : s = t := by
  have he : s.entries = t.entries :=
    eq_of_mem_iff s.sorted t.sorted fun e => by
      rw [mem_entries_iff (t := s) (k := e.1) (v := e.2), mem_entries_iff, h]
  cases s; cases t; cases he; rfl

omit [DecidableLT κ] in
/-- Tables that have values for the same keys have the same keys. -/
theorem keys_congr {s : Table κ ν} {t : Table κ μ} (h : ∀ k, s.contains k = t.contains k) :
    s.keys = t.keys := by
  have hkeys : ∀ {α : Type} (t : Table κ α), (t.mapVal fun _ => ()).keys = t.keys := fun t => by
    unfold keys mapVal
    rw [List.map_map]
    rfl
  have hunit : s.mapVal (fun _ => ()) = t.mapVal fun _ => () := ext_get? fun k => by
    have hk := h k
    unfold contains at hk
    rw [get?_mapVal, get?_mapVal]
    cases hs : s.get? k <;> cases ht : t.get? k <;> simp_all
  rw [← hkeys s, ← hkeys t, hunit]

omit [DecidableLT κ] in
/-- Erasing all keys, in any order. -/
theorem foldl_erase_of_perm {t : Table κ ν} {l : List (κ × ν)} (h : l.Perm t.entries) :
    l.foldl (fun t e => t.erase e.1) t = ∅ := by
  refine ext_get? fun k => ?_
  rw [get?_foldl_erase, get?_empty]
  split
  · rfl
  · rename_i hk
    have hc : t.contains k = false := Bool.eq_false_iff.2 fun hc =>
      hk ((h.map Prod.fst).mem_iff.2 (mem_keys_iff.2 hc))
    exact Option.isNone_iff_eq_none.1 (Option.isSome_eq_false_iff.1 hc)

omit [DecidableLT κ] in
theorem erase_of_get?_eq_none {t : Table κ ν} {k : κ} (h : t.get? k = none) : t.erase k = t := by
  refine ext_get? fun j => ?_
  rw [get?_erase]
  split
  · rename_i hj
    rw [hj, h]
  · rfl

theorem erase_insert (t : Table κ ν) (k : κ) (v : ν) : (t.insert k v).erase k = t.erase k := by
  refine ext_get? fun j => ?_
  rw [get?_erase, get?_erase, get?_insert]
  split <;> rfl

theorem entries_insert_perm (t : Table κ ν) (k : κ) (v : ν) :
    (t.insert k v).entries.Perm ((k, v) :: (t.erase k).entries) := by
  have h := entries_perm_of_get? (t := t.insert k v) (k := k) (v := v)
    (by rw [get?_insert, if_pos rfl])
  rwa [erase_insert] at h

theorem entries_modify_perm {t : Table κ ν} {k : κ} {v : ν} (f : ν → ν) (h : t.get? k = some v) :
    (t.modify k f).entries.Perm ((k, f v) :: (t.erase k).entries) := by
  unfold modify
  rw [h]
  exact entries_insert_perm t k (f v)

end Order

end Table

end GroundControl
