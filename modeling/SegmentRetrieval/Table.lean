/-! # Finite tables

A table keeps at most one value a key, as a list of entries in which the newest stands first.  The
lemmas say what each operation does to look-ups.
-/

namespace SegmentRetrieval

/-- A finite map, as its entries. -/
abbrev Table (κ α : Type) := List (κ × α)

namespace Table

variable {κ α : Type} [DecidableEq κ]

/-- The value kept under a key. -/
def get? (table : Table κ α) (key : κ) : Option α :=
  match table with
  | [] => none
  | (k, value) :: rest => if k = key then some value else get? rest key

def erase (table : Table κ α) (key : κ) : Table κ α :=
  table.filter fun entry => entry.1 ≠ key

/-- Keeps `value` under `key`, in place of what was there. -/
def insert (table : Table κ α) (key : κ) (value : α) : Table κ α :=
  (key, value) :: table.erase key

/-- Keeps the entries whose keys satisfy `p`. -/
def restrict (table : Table κ α) (p : κ → Bool) : Table κ α :=
  table.filter fun entry => p entry.1

@[simp] theorem get?_nil (key : κ) : get? ([] : Table κ α) key = none := rfl

@[simp] theorem get?_restrict (table : Table κ α) (p : κ → Bool) (key : κ) :
    get? (table.restrict p) key = if p key then get? table key else none := by
  induction table with
  | nil => simp [restrict]
  | cons entry rest ih =>
    obtain ⟨k, value⟩ := entry
    simp only [restrict] at ih ⊢
    by_cases hp : p k
    · rw [List.filter_cons_of_pos (by simpa using hp), get?, get?, ih]
      by_cases hk : k = key
      · subst hk
        simp [hp]
      · simp [hk]
    · rw [List.filter_cons_of_neg (by simpa using hp), ih, get?]
      by_cases hk : k = key
      · subst hk
        simp [hp]
      · simp [hk]

@[simp] theorem get?_erase (table : Table κ α) (erased key : κ) :
    get? (table.erase erased) key = if key = erased then none else get? table key := by
  have := get?_restrict table (fun k => decide (k ≠ erased)) key
  simp only [restrict, erase] at this ⊢
  rw [this]
  by_cases hk : key = erased <;> simp [hk]

theorem get?_erase_eq_some_iff {table : Table κ α} {erased key : κ} {value : α} :
    get? (table.erase erased) key = some value ↔ key ≠ erased ∧ get? table key = some value := by
  rw [get?_erase]
  by_cases hk : key = erased <;> simp [hk]

@[simp] theorem get?_insert (table : Table κ α) (inserted key : κ) (value : α) :
    get? (table.insert inserted value) key =
      if key = inserted then some value else get? table key := by
  rw [insert, get?, get?_erase]
  by_cases hk : key = inserted
  · simp [hk]
  · simp [hk, Ne.symm hk]

theorem length_erase_lt {table : Table κ α} {key : κ} {value : α}
    (h : get? table key = some value) : (table.erase key).length < table.length := by
  induction table with
  | nil => simp at h
  | cons entry rest ih =>
    obtain ⟨k, other⟩ := entry
    have shorter : (rest.filter fun entry => decide (entry.1 ≠ key)).length ≤ rest.length :=
      List.length_filter_le _ _
    by_cases hk : k = key
    · simp only [erase, hk, ne_eq, not_true_eq_false, decide_false, List.filter_cons,
        List.length_cons]
      exact Nat.lt_succ_of_le shorter
    · have := ih (by simpa [get?, hk] using h)
      simpa [erase, hk, List.filter_cons] using this

/-! ## Operations in another order -/

theorem erase_restrict (table : Table κ α) (p : κ → Bool) (key : κ) :
    (table.restrict p).erase key = (table.erase key).restrict p := by
  simp only [erase, restrict, List.filter_filter, Bool.and_comm]

theorem erase_comm (table : Table κ α) (one other : κ) :
    (table.erase one).erase other = (table.erase other).erase one :=
  erase_restrict table (fun key => decide (key ≠ one)) other

theorem erase_erase (table : Table κ α) (key : κ) :
    (table.erase key).erase key = table.erase key := by
  simp only [erase, List.filter_filter, Bool.and_self]

theorem erase_of_get?_eq_none {table : Table κ α} {key : κ} (absent : table.get? key = none) :
    table.erase key = table := by
  induction table with
  | nil => rfl
  | cons entry rest ih =>
    obtain ⟨k, value⟩ := entry
    rw [get?] at absent
    split at absent
    next => cases absent
    next apart =>
      rw [erase, List.filter_cons_of_pos (by simpa using apart)]
      exact congrArg _ (ih absent)

theorem erase_insert (table : Table κ α) (key : κ) (value : α) :
    (table.insert key value).erase key = table.erase key := by
  rw [insert, erase, List.filter_cons_of_neg (by simp)]
  exact erase_erase table key

theorem erase_insert_of_ne (table : Table κ α) {inserted key : κ} (value : α)
    (apart : inserted ≠ key) :
    (table.insert inserted value).erase key = (table.erase key).insert inserted value := by
  rw [insert, erase, List.filter_cons_of_pos (by simpa using apart)]
  exact congrArg _ (erase_comm table inserted key)

/-! ## Distinct keys -/

/-- No key has two entries. -/
def Distinct (table : Table κ α) : Prop :=
  (table.map Prod.fst).Nodup

theorem mem_of_get? {table : Table κ α} {key : κ} {value : α}
    (found : table.get? key = some value) : (key, value) ∈ table := by
  induction table with
  | nil => cases found
  | cons entry rest ih =>
    obtain ⟨k, other⟩ := entry
    rw [get?] at found
    split at found
    next here =>
      cases found
      rw [here]
      exact List.mem_cons_self
    next => exact List.mem_cons_of_mem _ (ih found)

theorem Distinct.mem_iff {table : Table κ α} (distinct : table.Distinct) {key : κ} {value : α} :
    (key, value) ∈ table ↔ table.get? key = some value := by
  refine ⟨fun member => ?_, mem_of_get?⟩
  induction table with
  | nil => cases member
  | cons entry rest ih =>
    obtain ⟨k, other⟩ := entry
    obtain ⟨first, others⟩ := List.nodup_cons.mp distinct
    rw [get?]
    rcases List.mem_cons.mp member with here | later
    · cases here
      exact if_pos rfl
    · rw [if_neg, ih others later]
      rintro rfl
      exact first (List.mem_map.mpr ⟨_, later, rfl⟩)

omit [DecidableEq κ] in
theorem Distinct.nodup {table : Table κ α} (distinct : table.Distinct) : table.Nodup :=
  List.Pairwise.of_map Prod.fst (fun _ _ differ same => differ (congrArg Prod.fst same)) distinct

omit [DecidableEq κ] in
theorem Distinct.restrict {table : Table κ α} (distinct : table.Distinct) (p : κ → Bool) :
    (table.restrict p).Distinct :=
  distinct.sublist (List.filter_sublist.map Prod.fst)

theorem Distinct.erase {table : Table κ α} (distinct : table.Distinct) (key : κ) :
    (table.erase key).Distinct :=
  distinct.sublist (List.filter_sublist.map Prod.fst)

theorem Distinct.insert {table : Table κ α} (distinct : table.Distinct) (key : κ) (value : α) :
    (table.insert key value).Distinct := by
  refine List.nodup_cons.mpr ⟨fun member => ?_, distinct.erase key⟩
  obtain ⟨entry, kept, same⟩ := List.mem_map.mp member
  exact absurd same (by simpa using (List.mem_filter.mp kept).2)

omit [DecidableEq κ] in
theorem Distinct.perm {first second : Table κ α} (distinct : first.Distinct)
    (same : first.Perm second) : second.Distinct :=
  (same.map Prod.fst).nodup distinct

/-- The order of the entries plays no role. -/
theorem Distinct.get?_eq_of_perm {first second : Table κ α} (distinct : first.Distinct)
    (same : first.Perm second) (key : κ) : first.get? key = second.get? key := by
  refine Option.ext fun value => ?_
  rw [← distinct.mem_iff, ← (distinct.perm same).mem_iff, same.mem_iff]

/-- Tables with distinct keys and the same look-ups have the same entries. -/
theorem Distinct.perm_of_get?_eq {first second : Table κ α} (one : first.Distinct)
    (other : second.Distinct) (same : ∀ key, first.get? key = second.get? key) :
    first.Perm second := by
  refine (List.perm_ext_iff_of_nodup one.nodup other.nodup).mpr ?_
  rintro ⟨key, value⟩
  rw [one.mem_iff, other.mem_iff, same]

end Table

end SegmentRetrieval
