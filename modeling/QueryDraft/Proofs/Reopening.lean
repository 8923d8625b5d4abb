import QueryDraft.Proofs.SavedText
import QueryDraft.Proofs.Saving
import QueryDraft.Proofs.ShortNumbers
import QueryDraft.Proofs.ShownNumbers
import QueryDraft.Session.Basic

/-!
Saved queries are opened again with the statement they were saved with exactly when the numbers that stand
in it are read back as themselves.
-/

set_option autoImplicit false

namespace QueryDraft

open Json
open Number

namespace Query

variable (settings : Settings) (q : Query)

-- The numbers that a query shows are read back as themselves, and the ones it does not show as any number at all.
structure Steady : Prop where
  readable : ∀ f ∈ q.filters, ∀ x, f.operand = .float x → (approximate x.numeral).isSome = true
  shown : ∀ f ∈ q.filters, f.isRenderable = true → f.Steady

/-- Numbers of few digits and a small power of ten are read back as themselves, so that a query with no other numbers
is opened again with the statement it was saved with. -/
theorem steady_of_short (short : ∀ f ∈ q.filters, ∀ x, f.operand = .float x → Short x.numeral) : q.Steady := by
  constructor
  · intro f member x float
    rw [approximate_short x (short f member x float)]
    rfl
  · intro f member _ x _ float
    exact approximate_short x (short f member x float)

theorem statement_reread (r : Query) (valid : q.issues = []) (read : q.reread = some r) :
    r.statement settings = q.statement settings ↔ ∀ f ∈ q.filters, f.isRenderable = true → f.Steady := by
  obtain ⟨filters, found, rfl⟩ := Option.map_eq_some_iff.mp read
  have pairs := Filter.rereads q.filters filters found
  rw [statement_filters settings q filters valid (where_body_present q.filters filters pairs)]
  exact where_body_reread q.filters filters pairs

theorem issues_reread (r : Query) (read : q.reread = some r) : r.issues = q.issues := by
  obtain ⟨filters, -, rfl⟩ := Option.map_eq_some_iff.mp read
  exact issues_filters q filters

theorem reread_readable :
    q.reread.isSome = true ↔ ∀ f ∈ q.filters, ∀ x, f.operand = .float x → (approximate x.numeral).isSome = true := by
  rw [reread, Option.isSome_map, Filter.rereads_isSome]
  simp only [Filter.reread_isSome]

theorem steady_iff (valid : q.issues = []) :
    q.Steady ↔ ∃ r, q.reread = some r ∧ r.statement settings = q.statement settings := by
  constructor
  · intro steady
    obtain ⟨r, read⟩ := Option.isSome_iff_exists.mp ((reread_readable q).mpr steady.readable)
    exact ⟨r, read, (statement_reread settings q r valid read).mpr steady.shown⟩
  · rintro ⟨r, read, same⟩
    exact ⟨(reread_readable q).mp (by rw [read]; rfl), (statement_reread settings q r valid read).mp same⟩

end Query

/-! ## Saving and reopening -/

-- The record can be read back from its text, and the session resumed on its snapshot compiles and saves the
-- statement of the record.
def SavedQuery.Reproduces (catalog : Catalog) (settings : Settings) (record : SavedQuery) : Prop :=
  ∃ read query, codec.parse (codec.print record) = .ok read ∧ read.snapshot = some query ∧
    (Session.resume catalog settings query).1.recompile.1.sql = record.sql ∧
    ∀ id createdAt database name,
      ((Session.resume catalog settings query).1.save id createdAt database name).1.map SavedQuery.sql = some record.sql

namespace Session

theorem reproduces_iff (catalog : Catalog) (settings : Settings) (q : Query) (valid : q.issues = []) (id : Identifier)
    (createdAt : Timestamp) (proper : createdAt.Proper) (database : String) (name : Option String) :
    (SavedQuery.create id createdAt database name (q.statement settings) (some q)).Reproduces catalog settings ↔
      ∃ r, q.reread = some r ∧ r.statement settings = q.statement settings := by
  have parsed := SavedQuery.parse_record
    (SavedQuery.create id createdAt database name (q.statement settings) (some q)) proper
  rw [SavedQuery.Reproduces, parsed]
  constructor
  · rintro ⟨read, query, found, snapshot, recompiled, -⟩
    cases again : q.reread with
    | none => simp [SavedQuery.reread, SavedQuery.rereadSnapshot, SavedQuery.create, again, outcome] at found
    | some r =>
        obtain rfl := by
          simpa [SavedQuery.reread, SavedQuery.rereadSnapshot, SavedQuery.create, again, outcome] using found
        cases snapshot
        rw [recompiled_sql] at recompiled
        exact ⟨_, rfl, recompiled⟩
  · rintro ⟨r, again, same⟩
    have issues : r.issues = [] := (q.issues_reread r again).trans valid
    refine ⟨{ SavedQuery.create id createdAt database name (q.statement settings) (some q) with snapshot := some r }, r,
      ?_, rfl, ?_, ?_⟩
    · simp [SavedQuery.reread, SavedQuery.rereadSnapshot, SavedQuery.create, again, outcome]
    · rw [recompiled_sql]
      exact same
    · intro id' createdAt' database' name'
      exact (saved_sql (resume catalog settings r).1 id' createdAt' database' name' issues).trans (congrArg some same)

/-- A number that its own text does not lead back to is the only thing that reopening a saved query can change. -/
theorem reopened_exactly (s : Session) (catalog : Catalog) (id : Identifier) (createdAt : Timestamp)
    (proper : createdAt.Proper) (database : String) (name : Option String) (record : SavedQuery)
    (saved : (s.save id createdAt database name).1 = some record) :
    record.Reproduces catalog s.settings ↔ s.query.Steady := by
  obtain ⟨valid, rfl⟩ := (saved_record s id createdAt database name record).mp saved
  rw [reproduces_iff catalog s.settings s.query valid id createdAt proper database name]
  exact (s.query.steady_iff s.settings valid).symm

-- One table, one column and one condition on a number.
def orders (total : Binary64) : Session :=
  { settings := .standard
    catalog := Roster.empty.put ⟨"t_orders", "orders", [⟨"id", "integer"⟩, ⟨"total", "decimal"⟩]⟩
    query :=
      { Query.empty with
        sources := [⟨"t_orders", "orders", none⟩]
        columns := Roster.empty.put ("orders.id", .plain "orders.id" "integer")
        filters := [⟨"orders.total", .compare .eq, .float total, .and⟩] } }

theorem orders_valid (total : Binary64) : (orders total).query.issues = [] := rfl

theorem orders_number (total : Binary64) :
    ∀ f ∈ (orders total).query.filters, ∀ x, f.operand = .float x → x = total := by
  intro f member x float
  obtain rfl : f = ⟨"orders.total", .compare .eq, .float total, .and⟩ := by simpa [orders] using member
  cases float
  rfl

theorem orders_steady (total : Binary64) (steady : (orders total).query.Steady) :
    approximate total.numeral = some total :=
  steady.shown _ List.mem_cons_self rfl total rfl rfl

theorem reopened_exactly_example :
    let half : Binary64 := ⟨false, 2 ^ 52, 1021, by decide, by decide, .inr (by decide)⟩
    let id : Identifier := ⟨List.replicate 32 ⟨7, by decide⟩, rfl⟩
    let noon : Timestamp := ⟨19875, 43200, 0⟩
    ∃ record, ((orders half).save id noon "db" (some "half")).1 = some record ∧ noon.Proper ∧
      (orders half).query.Steady ∧ record.Reproduces .empty .standard := by
  intro half id noon
  have proper : noon.Proper := ⟨by decide, by decide, .inl (by decide)⟩
  have few : Short half.numeral := ⟨by decide +kernel, by decide +kernel, by decide +kernel⟩
  have short : ∀ f ∈ (orders half).query.filters, ∀ x, f.operand = .float x → Short x.numeral := by
    intro f member x float
    rw [orders_number half f member x float]
    exact few
  have steady : (orders half).query.Steady := Query.steady_of_short _ short
  have saved := ((orders half).saved_record id noon "db" (some "half") _).mpr ⟨orders_valid half, rfl⟩
  have reproduces := (reopened_exactly (orders half) .empty id noon proper "db" (some "half") _ saved).mpr steady
  exact ⟨_, saved, proper, steady, reproduces⟩

-- The shortest digits of this number are 3e+23, and they are read as its lower neighbour.
theorem reopened_number_drifts :
    let total : Binary64 := ⟨false, 8940696716308594, 1099, by decide, by decide, .inr (by decide)⟩
    let lower : Binary64 := ⟨false, 8940696716308593, 1099, by decide, by decide, .inr (by decide)⟩
    let id : Identifier := ⟨List.replicate 32 ⟨7, by decide⟩, rfl⟩
    let noon : Timestamp := ⟨19875, 43200, 0⟩
    ∃ record, ((orders total).save id noon "db" (some "big")).1 = some record ∧
      record.sql = "SELECT orders.id\nFROM orders\nWHERE orders.total = 300000000000000000000000;" ∧
      (orders total).query.reread = some (orders lower).query ∧
      (orders lower).recompile.1.sql = "SELECT orders.id\nFROM orders\nWHERE orders.total = 299999999999999970000000;" ∧
      ¬ record.Reproduces (orders total).catalog .standard := by
  intro total lower id noon
  have proper : noon.Proper := ⟨by decide, by decide, .inl (by decide)⟩
  have saved := ((orders total).saved_record id noon "db" (some "big") _).mpr ⟨orders_valid total, rfl⟩
  have read : approximate total.numeral = some lower := by decide +kernel
  refine ⟨_, saved, by decide +kernel, by decide +kernel, by decide +kernel, ?_⟩
  intro reproduces
  have kept := (reproduces_iff (orders total).catalog .standard _ (orders_valid total) id noon proper "db"
    (some "big")).mp reproduces
  have steady := (Query.steady_iff .standard _ (orders_valid total)).mpr kept
  have same := orders_steady total steady
  rw [read] at same
  exact absurd same (by decide)

end Session

end QueryDraft
