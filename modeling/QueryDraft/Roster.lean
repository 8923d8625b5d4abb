/-!
Rosters: lists in the order of first entry whose members have different keys.
-/

set_option autoImplicit false

namespace QueryDraft

structure Roster {α : Type} (key : α → String) where
  items : List α
  distinct : (items.map key).Nodup
deriving DecidableEq

namespace Roster

variable {α : Type} {key : α → String}

def empty : Roster key := ⟨[], List.nodup_nil⟩

def keys (r : Roster key) : List String := r.items.map key

def has (r : Roster key) (k : String) : Bool := r.items.any fun a => key a = k

def get? (r : Roster key) (k : String) : Option α := r.items.find? fun a => key a = k

theorem has_iff (r : Roster key) (k : String) : r.has k = true ↔ k ∈ r.items.map key := by
  simp [has]

theorem ext_items (r s : Roster key) (same : r.items = s.items) : r = s := by
  cases r
  cases s
  cases same
  rfl

theorem keys_replace (items : List α) (a : α) :
    (items.map fun b => if key b = key a then a else b).map key = items.map key := by
  rw [List.map_map]
  apply List.map_congr_left
  intro b _
  by_cases same : key b = key a <;> simp [same]

-- Takes the place of the member with the same key, or comes last.
def put (r : Roster key) (a : α) : Roster key :=
  if known : r.has (key a) then
    ⟨r.items.map fun b => if key b = key a then a else b, by rw [keys_replace]; exact r.distinct⟩
  else
    ⟨r.items ++ [a], by
      rw [List.map_append, List.map_singleton, List.nodup_append]
      refine ⟨r.distinct, by simp, fun x old y new same => known ?_⟩
      rw [List.mem_singleton] at new
      rw [has_iff, ← new, ← same]
      exact old⟩

theorem put_fresh (r : Roster key) (a : α) (fresh : key a ∉ r.items.map key) : (r.put a).items = r.items ++ [a] := by
  have unknown : ¬ r.has (key a) = true := fun known => fresh ((has_iff r (key a)).mp known)
  rw [put, dif_neg unknown]

theorem keys_put (r : Roster key) (a : α) : (r.put a).keys = if key a ∈ r.keys then r.keys else r.keys ++ [key a] := by
  have known := has_iff r (key a)
  rw [put]
  by_cases present : key a ∈ r.keys
  · rw [dif_pos (known.mpr present), if_pos present]
    exact keys_replace r.items a
  · rw [dif_neg (mt known.mp present), if_neg present]
    exact List.map_append

theorem mem_keys_put (r : Roster key) (a : α) (k : String) : k ∈ (r.put a).keys ↔ k ∈ r.keys ∨ k = key a := by
  rw [keys_put]
  by_cases present : key a ∈ r.keys
  · rw [if_pos present]
    exact (or_iff_left_of_imp fun same => same ▸ present).symm
  · simp [if_neg present]

theorem mem_put (r : Roster key) (a b : α) : b ∈ (r.put a).items ↔ b = a ∨ b ∈ r.items ∧ key b ≠ key a := by
  have known := has_iff r (key a)
  rw [put]
  by_cases present : key a ∈ r.items.map key
  · rw [dif_pos (known.mpr present), List.mem_map]
    constructor
    · rintro ⟨c, member, rfl⟩
      by_cases same : key c = key a
      · exact .inl (if_pos same)
      · rw [if_neg same]
        exact .inr ⟨member, same⟩
    · rintro (rfl | ⟨member, other⟩)
      · obtain ⟨c, member, same⟩ := List.mem_map.mp present
        exact ⟨c, member, if_pos same⟩
      · exact ⟨b, member, if_neg other⟩
  · rw [dif_neg (mt known.mp present), List.mem_append, List.mem_singleton]
    constructor
    · rintro (member | rfl)
      · exact .inr ⟨member, fun same => present (same ▸ List.mem_map_of_mem member)⟩
      · exact .inl rfl
    · rintro (rfl | ⟨member, -⟩)
      · exact .inr rfl
      · exact .inl member

-- Keys differ, so that the first member under a key is the only one.
theorem get_eq_some (r : Roster key) (k : String) (a : α) : r.get? k = some a ↔ a ∈ r.items ∧ key a = k := by
  constructor
  · intro found
    exact ⟨List.mem_of_find?_eq_some found, by simpa using List.find?_some found⟩
  · rintro ⟨member, rfl⟩
    obtain ⟨items, distinct⟩ := r
    induction items with
    | nil => cases member
    | cons b rest ih =>
        obtain ⟨fresh, others⟩ := List.nodup_cons.mp distinct
        rcases List.mem_cons.mp member with rfl | later
        · exact List.find?_cons_of_pos (by simp)
        · have other : key b ≠ key a := fun same => fresh (same ▸ List.mem_map_of_mem later)
          exact (List.find?_cons_of_neg (by simpa using other)).trans (ih others later)

def erase (r : Roster key) (k : String) : Roster key :=
  ⟨r.items.filter fun a => key a ≠ k, r.distinct.sublist ((List.filter_sublist).map key)⟩

theorem keys_erase (r : Roster key) (k : String) : (r.erase k).keys = r.keys.filter fun other => other ≠ k := by
  rw [keys, keys, List.filter_map]
  rfl

theorem erase_absent (r : Roster key) (k : String) (absent : k ∉ r.keys) : r.erase k = r := by
  apply ext_items
  refine List.filter_eq_self.mpr fun a member => decide_eq_true ?_
  rintro rfl
  exact absent (List.mem_map_of_mem member)

theorem erase_put (r : Roster key) (a : α) (fresh : key a ∉ r.keys) : (r.put a).erase (key a) = r := by
  have kept : (r.items.filter fun b => key b ≠ key a) = r.items := congrArg items (r.erase_absent (key a) fresh)
  apply ext_items
  dsimp only [erase]
  rw [put_fresh r a fresh, List.filter_append, kept, List.filter_cons_of_neg (by simp), List.filter_nil,
    List.append_nil]

def adjust (r : Roster key) (k : String) (f : α → α) (keeps : ∀ a, key (f a) = key a) : Roster key :=
  ⟨r.items.map fun a => if key a = k then f a else a, by
    have same : (r.items.map fun a => if key a = k then f a else a).map key = r.items.map key := by
      rw [List.map_map]
      apply List.map_congr_left
      intro a _
      by_cases hit : key a = k <;> simp [hit, keeps]
    rw [same]
    exact r.distinct⟩

theorem keys_adjust (r : Roster key) (k : String) (f : α → α) (keeps : ∀ a, key (f a) = key a) :
    (r.adjust k f keeps).keys = r.keys := by
  rw [keys, keys, adjust, List.map_map]
  apply List.map_congr_left
  intro a _
  by_cases hit : key a = k <;> simp [hit, keeps]

theorem adjust_absent (r : Roster key) (k : String) (f : α → α) (keeps : ∀ a, key (f a) = key a) (absent : k ∉ r.keys) :
    r.adjust k f keeps = r := by
  apply ext_items
  have same : ∀ a ∈ r.items, (if key a = k then f a else a) = id a := by
    intro a member
    have other : key a ≠ k := fun hit => absent (hit ▸ List.mem_map_of_mem member)
    exact if_neg other
  exact (List.map_congr_left same).trans (List.map_id _)

theorem erase_adjust (r : Roster key) (k : String) (f : α → α) (keeps : ∀ a, key (f a) = key a) :
    (r.adjust k f keeps).erase k = r.erase k := by
  apply ext_items
  dsimp only [erase, adjust]
  induction r.items with
  | nil => rfl
  | cons a rest ih =>
      by_cases hit : key a = k
      · rw [List.map_cons, if_pos hit, List.filter_cons_of_neg (by simp [keeps, hit]),
          List.filter_cons_of_neg (by simp [hit]), ih]
      · rw [List.map_cons, if_neg hit, List.filter_cons_of_pos (by simp [hit]),
          List.filter_cons_of_pos (by simp [hit]), ih]

theorem adjust_swap (r : Roster key) (k : String) (f g : α → α) (keepsF : ∀ a, key (f a) = key a)
    (keepsG : ∀ a, key (g a) = key a) (swap : ∀ a, g (f a) = f (g a)) :
    (r.adjust k f keepsF).adjust k g keepsG = (r.adjust k g keepsG).adjust k f keepsF := by
  apply ext_items
  dsimp only [adjust]
  rw [List.map_map, List.map_map]
  refine List.map_congr_left fun a _ => ?_
  by_cases hit : key a = k
  · simp [hit, keepsF, keepsG, swap]
  · simp [hit]

def ofList (items : List α) : Roster key := items.foldl put empty

end Roster
end QueryDraft
