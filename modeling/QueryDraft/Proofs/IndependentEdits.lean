import QueryDraft.Proofs.JoinPairing

/-!
Edits that do not get into each other's way. Every edit but a reset belongs to one section of a query, looks at
nothing else and leaves all else alone, so that edits of different sections can change places; so can edits that set
different fields of one entry. An edit of an entry that is not there does nothing.
-/

set_option autoImplicit false

namespace QueryDraft

/-! ## Sections -/

-- The tables and the joins that attach them are one section.
inductive Section where
  | tables
  | columns
  | computed
  | filters
  | grouping
  | groupFilters
  | sorting
  | limit
  | offset
  | distinct
deriving DecidableEq

abbrev Section.Content : Section → Type
  | .tables => List Source × List Join
  | .columns => Roster (Prod.fst : KeyedColumn → String)
  | .computed => List ComputedColumn
  | .filters => List Filter
  | .grouping => Roster (id : String → String)
  | .groupFilters => List GroupFilter
  | .sorting => List SortTerm
  | .limit | .offset => Option UInt64
  | .distinct => Bool

def Query.content (q : Query) : (s : Section) → s.Content
  | .tables => (q.sources, q.joins)
  | .columns => q.columns
  | .computed => q.computed
  | .filters => q.filters
  | .grouping => q.grouping
  | .groupFilters => q.groupFilters
  | .sorting => q.sorting
  | .limit => q.limit
  | .offset => q.offset
  | .distinct => q.distinct

-- A reset belongs to no section.
def Edit.section? : Edit → Option Section
  | .reset => none
  | .addTable | .removeTable _ | .editTable _ _ | .addJoin | .editJoin _ _ => some .tables
  | .toggleColumn _ | .setAggregate _ _ | .setAlias _ _ => some .columns
  | .addComputed | .removeComputed _ | .editComputed _ _ => some .computed
  | .addFilter | .removeFilter _ | .editFilter _ _ => some .filters
  | .addGrouping _ | .removeGrouping _ => some .grouping
  | .addGroupFilter | .removeGroupFilter _ | .editGroupFilter _ _ => some .groupFilters
  | .addSort | .removeSort _ | .editSort _ _ => some .sorting
  | .setLimit _ => some .limit
  | .setOffset _ => some .offset
  | .setDistinct _ => some .distinct

theorem Edit.section_isSome (e : Edit) (kept : e ≠ .reset) : ∃ s, e.section? = some s := by
  cases e with
  | reset => exact absurd rfl kept
  | _ => exact ⟨_, rfl⟩

namespace Query

variable (catalog other : Catalog) (q r : Query) (a b e : Edit) (s t : Section)

-- Nothing of a query stands outside its sections.
theorem ext_content (same : ∀ s, q.content s = r.content s) : q = r := by
  obtain ⟨sources, joins⟩ := Prod.mk.inj (same .tables)
  cases q
  cases r
  rw [Query.mk.injEq]
  exact ⟨sources, joins, same .columns, same .computed, same .filters, same .grouping, same .groupFilters,
    same .sorting, same .limit, same .offset, same .distinct⟩

theorem content_elsewhere (belongs : e.section? = some s) (elsewhere : t ≠ s) :
    (q.apply catalog e).content t = q.content t := by
  cases e with
  | reset => cases belongs
  | removeTable _ | editJoin _ _ | toggleColumn _ | addGrouping _ =>
      cases belongs
      dsimp only [apply, removeTable, editJoin, toggleColumn, addGrouping]
      split <;> cases t <;> first | contradiction | rfl
  | _ =>
      cases belongs
      cases t <;> first | contradiction | rfl

-- What an edit makes of its own section depends on nothing else.
theorem content_own (belongs : e.section? = some s) (same : q.content s = r.content s) :
    (q.apply catalog e).content s = (r.apply catalog e).content s := by
  cases q
  cases r
  cases e with
  | reset => cases belongs
  | removeTable _ | editJoin _ _ | toggleColumn _ | addGrouping _ =>
      cases belongs
      cases same
      dsimp only [apply, removeTable, editJoin, toggleColumn, addGrouping]
      split <;> rfl
  | _ =>
      cases belongs
      cases same
      rfl

theorem swap_apart (first : a.section? = some s) (second : b.section? = some t) (apart : s ≠ t) :
    (q.apply catalog a).apply other b = (q.apply other b).apply catalog a := by
  refine ext_content _ _ fun u => ?_
  by_cases here : u = s
  · subst here
    have kept := content_elsewhere other q b t u second apart
    exact (content_elsewhere other _ b t u second apart).trans (content_own catalog _ _ a u first kept.symm)
  · by_cases there : u = t
    · subst there
      have kept := content_elsewhere catalog q a s u first here
      exact (content_own other _ _ b u second kept).trans (content_elsewhere catalog _ a s u first here).symm
    · rw [content_elsewhere other _ b t u second there, content_elsewhere catalog _ a s u first here,
        content_elsewhere catalog _ a s u first here, content_elsewhere other _ b t u second there]

end Query

/-! ## Entries and their fields -/

-- The fields that edits set, of whatever entry.
inductive Slot where
  | name
  | asName
  | kind
  | left
  | right
  | expression
  | subject
  | operator
  | operand
  | connective
  | aggregate
  | column
  | bound
  | reference
  | direction
deriving DecidableEq

-- Picking a table sets its name too.
def SourceEdit.slot : SourceEdit → Slot
  | .pick _ | .rename _ => .name
  | .asName _ => .asName

def JoinEdit.slot : JoinEdit → Slot
  | .kind _ => .kind
  | .left _ => .left
  | .operator _ => .operator
  | .right _ => .right

def ComputedEdit.slot : ComputedEdit → Slot
  | .expression _ => .expression
  | .asName _ => .asName

def FilterEdit.slot : FilterEdit → Slot
  | .subject _ => .subject
  | .operator _ => .operator
  | .operand _ => .operand
  | .connective _ => .connective

def GroupFilterEdit.slot : GroupFilterEdit → Slot
  | .aggregate _ => .aggregate
  | .column _ => .column
  | .operator _ => .operator
  | .bound _ => .bound
  | .connective _ => .connective

def SortEdit.slot : SortEdit → Slot
  | .reference _ => .reference
  | .direction _ => .direction

theorem Source.apply_swap (catalog other : Catalog) (s : Source) (a b : SourceEdit) (apart : a.slot ≠ b.slot) :
    (s.apply catalog a).apply other b = (s.apply other b).apply catalog a := by
  cases a <;> cases b <;> first | contradiction | rfl

theorem Join.apply_swap (j : Join) (a b : JoinEdit) (apart : a.slot ≠ b.slot) :
    (j.apply a).apply b = (j.apply b).apply a := by
  cases a <;> cases b <;> first | contradiction | rfl

theorem ComputedColumn.apply_swap (c : ComputedColumn) (a b : ComputedEdit) (apart : a.slot ≠ b.slot) :
    (c.apply a).apply b = (c.apply b).apply a := by
  cases a <;> cases b <;> first | contradiction | rfl

theorem Filter.apply_swap (f : Filter) (a b : FilterEdit) (apart : a.slot ≠ b.slot) :
    (f.apply a).apply b = (f.apply b).apply a := by
  cases a <;> cases b <;> first | contradiction | rfl

theorem GroupFilter.apply_swap (f : GroupFilter) (a b : GroupFilterEdit) (apart : a.slot ≠ b.slot) :
    (f.apply a).apply b = (f.apply b).apply a := by
  cases a <;> cases b <;> first | contradiction | rfl

theorem SortTerm.apply_swap (t : SortTerm) (a b : SortEdit) (apart : a.slot ≠ b.slot) :
    (t.apply a).apply b = (t.apply b).apply a := by
  cases a <;> cases b <;> first | contradiction | rfl

-- What an edit addresses, by its position or by its name.
inductive Entry where
  | table (idx : Nat)
  | join (idx : Nat)
  | column (name : String)
  | computed (idx : Nat)
  | filter (idx : Nat)
  | grouped (name : String)
  | groupFilter (idx : Nat)
  | sort (idx : Nat)
deriving DecidableEq

namespace Edit

def sets? : Edit → Option (Entry × Slot)
  | .editTable idx change => some (.table idx, change.slot)
  | .editJoin idx change => some (.join idx, change.slot)
  | .setAggregate name _ => some (.column name, .aggregate)
  | .setAlias name _ => some (.column name, .asName)
  | .editComputed idx change => some (.computed idx, change.slot)
  | .editFilter idx change => some (.filter idx, change.slot)
  | .editGroupFilter idx change => some (.groupFilter idx, change.slot)
  | .editSort idx change => some (.sort idx, change.slot)
  | _ => none

def removes? : Edit → Option Entry
  | .removeTable idx => some (.table idx)
  | .removeComputed idx => some (.computed idx)
  | .removeFilter idx => some (.filter idx)
  | .removeGrouping name => some (.grouped name)
  | .removeGroupFilter idx => some (.groupFilter idx)
  | .removeSort idx => some (.sort idx)
  | _ => none

-- The entry that has to be there for the edit to do anything.
def needs? (e : Edit) : Option Entry := e.removes?.or (e.sets?.map Prod.fst)

theorem sets_cases (e : Edit) (entry : Entry) (slot : Slot) (sets : e.sets? = some (entry, slot)) :
    match entry with
    | .table idx => ∃ change, e = .editTable idx change ∧ change.slot = slot
    | .join idx => ∃ change, e = .editJoin idx change ∧ change.slot = slot
    | .column name =>
        (∃ aggregate, e = .setAggregate name aggregate ∧ .aggregate = slot) ∨
          ∃ asName, e = .setAlias name asName ∧ .asName = slot
    | .computed idx => ∃ change, e = .editComputed idx change ∧ change.slot = slot
    | .filter idx => ∃ change, e = .editFilter idx change ∧ change.slot = slot
    | .grouped _ => False
    | .groupFilter idx => ∃ change, e = .editGroupFilter idx change ∧ change.slot = slot
    | .sort idx => ∃ change, e = .editSort idx change ∧ change.slot = slot := by
  cases e with
  | setAggregate name aggregate =>
      cases sets
      exact .inl ⟨aggregate, rfl, rfl⟩
  | setAlias name asName =>
      cases sets
      exact .inr ⟨asName, rfl, rfl⟩
  | editTable idx change | editJoin idx change | editComputed idx change | editFilter idx change
  | editGroupFilter idx change | editSort idx change =>
      cases sets
      exact ⟨change, rfl, rfl⟩
  | _ => cases sets

end Edit

theorem modify_swap {α : Type} (items : List α) (idx : Nat) (f g : α → α) (swap : ∀ a, g (f a) = f (g a)) :
    (items.modify idx f).modify idx g = (items.modify idx g).modify idx f := by
  have same : g ∘ f = f ∘ g := funext swap
  rw [List.modify_modify_eq, List.modify_modify_eq, same]

namespace Query

variable (catalog other : Catalog) (q : Query) (a b e : Edit)

-- A join is made once its table is there.
def Has (q : Query) : Entry → Prop
  | .table idx => idx < q.sources.length
  | .join idx => idx < q.joins.length ∨ (q.joined? idx).isSome = true
  | .column name => name ∈ q.columns.keys
  | .computed idx => idx < q.computed.length
  | .filter idx => idx < q.filters.length
  | .grouped name => name ∈ q.grouping.keys
  | .groupFilter idx => idx < q.groupFilters.length
  | .sort idx => idx < q.sorting.length

theorem edit_join_made (idx : Nat) (change : JoinEdit) (made : idx < q.joins.length ∨ idx + 1 < q.sources.length) :
    q.editJoin idx change =
      { q with
        joins := (q.joins ++ List.replicate (idx + 1 - q.joins.length) Join.blank).modify idx fun j => j.apply change } :=
  if_pos made

theorem edit_join_present (idx : Nat) (change : JoinEdit) (present : idx < q.joins.length) :
    q.editJoin idx change = { q with joins := q.joins.modify idx fun j => j.apply change } := by
  rw [edit_join_made q idx change (.inl present), Nat.sub_eq_zero_of_le present, List.replicate_zero, List.append_nil]

-- The joins up to the edited one are there after the first edit, so that the second makes no more.
theorem edit_join_swap (idx : Nat) (change later : JoinEdit) (apart : change.slot ≠ later.slot) :
    (q.editJoin idx change).editJoin idx later = (q.editJoin idx later).editJoin idx change := by
  by_cases made : idx < q.joins.length ∨ idx + 1 < q.sources.length
  · let filled := q.joins ++ List.replicate (idx + 1 - q.joins.length) Join.blank
    have inside : idx < filled.length := by
      rw [List.length_append, List.length_replicate]
      omega
    have first : ∀ e, q.editJoin idx e = { q with joins := filled.modify idx fun j => j.apply e } := fun e =>
      q.edit_join_made idx e made
    have second : ∀ e, idx < (filled.modify idx fun j => j.apply e).length := fun e => by rwa [List.length_modify]
    have swapped := modify_swap filled idx (fun j => j.apply change) (fun j => j.apply later) fun j =>
      j.apply_swap change later apart
    rw [first, first, edit_join_present _ idx later (second change), edit_join_present _ idx change (second later),
      swapped]
  · have refused : ∀ e, q.editJoin idx e = q := fun e => if_neg made
    rw [refused, refused, refused]

theorem set_column_swap (name asName : String) (aggregate : Option Aggregate) :
    (q.setAggregate name aggregate).setAlias name asName = (q.setAlias name asName).setAggregate name aggregate := by
  refine congrArg (fun columns => { q with columns }) (q.columns.adjust_swap name _ _ _ _ ?_)
  exact fun _ => rfl

-- Neither the first edit nor the second looks at the field that the other one sets.
theorem swap_fields (entry : Entry) (s t : Slot) (first : a.sets? = some (entry, s))
    (second : b.sets? = some (entry, t)) (apart : s ≠ t) :
    (q.apply catalog a).apply other b = (q.apply other b).apply catalog a := by
  have former := a.sets_cases entry s first
  have latter := b.sets_cases entry t second
  cases entry with
  | table idx =>
      obtain ⟨change, rfl, rfl⟩ := former
      obtain ⟨later, rfl, rfl⟩ := latter
      dsimp only [apply, editTable]
      congr 1
      exact modify_swap _ idx _ _ fun s => s.apply_swap catalog other change later apart
  | join idx =>
      obtain ⟨change, rfl, rfl⟩ := former
      obtain ⟨later, rfl, rfl⟩ := latter
      exact q.edit_join_swap idx change later apart
  | column name =>
      rcases former with ⟨aggregate, rfl, rfl⟩ | ⟨asName, rfl, rfl⟩
      · rcases latter with ⟨_, -, same⟩ | ⟨asName, rfl, -⟩
        · exact absurd same apart
        · exact q.set_column_swap name asName aggregate
      · rcases latter with ⟨aggregate, rfl, -⟩ | ⟨_, -, same⟩
        · exact (q.set_column_swap name asName aggregate).symm
        · exact absurd same apart
  | computed idx | filter idx | groupFilter idx | sort idx =>
      obtain ⟨change, rfl, rfl⟩ := former
      obtain ⟨later, rfl, rfl⟩ := latter
      dsimp only [apply]
      congr 1
      exact modify_swap _ idx _ _ fun entry => entry.apply_swap change later apart
  | grouped name => exact former.elim

theorem apply_unneeded (entry : Entry) (needs : e.needs? = some entry) (absent : ¬ q.Has entry) :
    q.apply catalog e = q := by
  cases e with
  | removeTable idx =>
      cases needs
      exact if_neg absent
  | editJoin idx change =>
      cases needs
      exact q.edit_join_refused idx change absent
  | setAggregate name _ | setAlias name _ =>
      cases needs
      exact congrArg (fun columns => { q with columns }) (q.columns.adjust_absent name _ _ absent)
  | removeGrouping name =>
      cases needs
      exact congrArg (fun grouping => { q with grouping }) (q.grouping.erase_absent name absent)
  | editTable idx _ | editComputed idx _ | editFilter idx _ | editGroupFilter idx _ | editSort idx _ =>
      cases needs
      dsimp only [apply, editTable]
      rw [List.modify_eq_self (Nat.le_of_not_lt absent)]
  | removeComputed idx | removeFilter idx | removeGroupFilter idx | removeSort idx =>
      cases needs
      dsimp only [apply]
      rw [List.eraseIdx_of_length_le (Nat.le_of_not_lt absent)]
  | _ => cases needs

/-- Every edit but a reset belongs to a section and changes no other one. Edits of different sections can change
places, and so can edits that set different fields of one entry. An edit or a removal of an entry that is not there
does nothing. -/
theorem edits_independent :
    (a ≠ .reset → ∃ s, a.section? = some s ∧ ∀ t ≠ s, (q.apply catalog a).content t = q.content t) ∧
      (∀ s t, a.section? = some s → b.section? = some t → s ≠ t →
        (q.apply catalog a).apply other b = (q.apply other b).apply catalog a) ∧
      (∀ entry s t, a.sets? = some (entry, s) → b.sets? = some (entry, t) → s ≠ t →
        (q.apply catalog a).apply other b = (q.apply other b).apply catalog a) ∧
      ∀ entry, a.needs? = some entry → ¬ q.Has entry → q.apply catalog a = q := by
  refine ⟨fun kept => ?_, q.swap_apart catalog other a b, q.swap_fields catalog other a b, q.apply_unneeded catalog a⟩
  obtain ⟨s, belongs⟩ := a.section_isSome kept
  exact ⟨s, belongs, fun t elsewhere => q.content_elsewhere catalog a s t belongs elsewhere⟩

-- A table may be picked before or after it is named and grouped by; the second filter is not there to be edited.
theorem edits_independent_example :
    let catalog : Catalog := Roster.empty.put ⟨"t_users", "users", []⟩
    let pick : Edit := .editTable 0 (.pick "t_users")
    let call : Edit := .editTable 0 (.asName "u")
    let group : Edit := .addGrouping "u.city"
    let q := fresh.apply catalog pick
    q.sources = [⟨"t_users", "users", none⟩] ∧ q.content .grouping = fresh.content .grouping ∧
      (q.apply catalog group).grouping.items = ["u.city"] ∧
      q.apply catalog group = (fresh.apply catalog group).apply catalog pick ∧
      q.apply catalog call = (fresh.apply catalog call).apply catalog pick ∧
      ¬ fresh.Has (.filter 1) ∧ fresh.apply catalog (.editFilter 1 (.subject "u.id")) = fresh := by
  intro catalog pick call group q
  obtain ⟨frame, apart, -, -⟩ := fresh.edits_independent catalog catalog pick group
  obtain ⟨-, -, fields, -⟩ := fresh.edits_independent catalog catalog pick call
  obtain ⟨-, -, -, unneeded⟩ := fresh.edits_independent catalog catalog (.editFilter 1 (.subject "u.id")) group
  obtain ⟨s, belongs, kept⟩ := frame nofun
  cases belongs
  have absent : ¬ fresh.Has (.filter 1) := Nat.lt_irrefl 1
  exact ⟨rfl, kept .grouping nofun, rfl, apart .tables .grouping rfl rfl nofun,
    fields (.table 0) .name .asName rfl rfl nofun, absent, unneeded (.filter 1) rfl absent⟩

end Query
end QueryDraft
