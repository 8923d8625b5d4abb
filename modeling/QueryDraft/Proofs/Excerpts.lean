import Mathlib.Data.List.Forall2
import QueryDraft.Proofs.CodecLaws

/-!
Records read from objects that others have changed: members in another order, members gone, and members whose
names the record does not know. A part whose member is gone is as the record starts.
-/

set_option autoImplicit false

namespace QueryDraft.Json

variable {α β γ σ : Type}

def named (members : List (String × Value)) (name : String) : Bool := (members.map Prod.fst).contains name

theorem named_iff (members : List (String × Value)) (name : String) :
    named members name = true ↔ name ∈ members.map Prod.fst := by
  rw [named, List.contains_iff_mem]

theorem named_cons (m : String × Value) (rest : List (String × Value)) (name : String) :
    named (m :: rest) name = (name == m.1 || named rest name) := rfl

-- A member adds its name to those of the members behind it, or to those seen before it.
theorem seen_field (fields rest : List (String × Value)) (seen : List String) (m : String × Value)
    (field : named fields m.1 = true) :
    (fun n => (m.1 :: seen).contains n || named fields n && named rest n) =
      fun n => seen.contains n || named fields n && named (m :: rest) n := by
  funext n
  rw [List.contains_cons, named_cons]
  by_cases same : n = m.1
  · simp [same, field]
  · rw [beq_false_of_ne same, Bool.false_or, Bool.false_or]

theorem seen_foreign (fields rest : List (String × Value)) (seen : List String) (m : String × Value)
    (foreign : named fields m.1 = false) :
    (fun n => seen.contains n || named fields n && named rest n) =
      fun n => seen.contains n || named fields n && named (m :: rest) n := by
  funext n
  rw [named_cons]
  by_cases same : n = m.1
  · rw [same, foreign, Bool.false_and, Bool.false_and]
  · rw [beq_false_of_ne same, Bool.false_or]

-- What may become of the members of an object: some of its fields are kept, in any order and between members
-- that name none of them.
structure Excerpt (fields kept members : List (String × Value)) : Prop where
  sublist : kept.Sublist fields
  arranged : ∃ foreign, members.Perm (kept ++ foreign) ∧ ∀ m ∈ foreign, named fields m.1 = false ∧ m.2.whole = true

theorem excerpt_whole (fields : List (String × Value)) : Excerpt fields fields fields :=
  ⟨.refl fields, [], by simp, nofun⟩

-- A written record with its members changed, and the record that has the parts still there.
def Codec.Cut (codec : Codec σ) (only : σ → (String → Bool) → σ) (s : σ) (v : Value) (t : σ) : Prop :=
  ∃ fields kept members, codec.write s = .record fields ∧ Excerpt fields kept members ∧ v = .record members ∧
    t = only s (named kept)

-- Entry by entry, as many in all three lists.
inductive Each (R : α → β → γ → Prop) : List α → List β → List γ → Prop
  | nil : Each R [] [] []
  | cons {a : α} {b : β} {c : γ} {as : List α} {bs : List β} {cs : List γ} :
      R a b c → Each R as bs cs → Each R (a :: as) (b :: bs) (c :: cs)

theorem each_read (item : Codec α) (R : α → Value → α → Prop) (as : List α) (vs : List Value) (bs : List α)
    (each : Each R as vs bs) (reads : ∀ a ∈ as, ∀ v b, R a v b → item.read v = .ok b) :
    (Codec.list item).read (.list vs) = .ok bs := by
  have mapped : vs.mapM item.read = .ok bs := by
    induction each with
    | nil => rfl
    | cons first _ ih =>
        obtain ⟨here, behind⟩ := List.forall_mem_cons.mp reads
        rw [List.mapM_cons, here _ _ first, ih behind]
        rfl
  simp only [Codec.list, Value.list, mapped]
  rfl

/-! ## Fields -/

-- `state` has the parts of the names that hold, and reading the member adds the part of its name.
structure Fill (state : (String → Bool) → σ) (f : Field σ) (m : String × Value) : Prop where
  name : m.1 = f.name
  optional : f.required = false
  reads : ∀ p, f.read m.2 (state p) = .ok (state fun n => n == f.name || p n)

theorem fill_read (name : String) (codec : Codec α) (get : σ → α) (set : α → σ → σ) (state : (String → Bool) → σ)
    (v : Value) (a : α) (read : codec.read v = .ok a) (fits : ∀ p, set a (state p) = state fun n => n == name || p n) :
    Fill state (Field.of name codec get set) (name, v) where
  name := rfl
  optional := rfl
  reads p := by
    simp only [Field.of, read, ← fits p]
    rfl

theorem fill_lossless (name : String) (codec : Codec α) (get : σ → α) (set : α → σ → σ) (state : (String → Bool) → σ)
    (a : α) (law : codec.Lossless) (fits : ∀ p, set a (state p) = state fun n => n == name || p n) :
    Fill state (Field.of name codec get set) (name, codec.write a) :=
  fill_read name codec get set state _ a (law a).reads fits

namespace Shape

section

variable (shape : Shape σ) (state : (String → Bool) → σ) (fields : List (String × Value))
  (fills : List.Forall₂ (Fill state) shape fields)
include fills

theorem fills_names : fields.map Prod.fst = shape.map Field.name := by
  induction fills with
  | nil => rfl
  | cons first _ ih => rw [List.map_cons, List.map_cons, first.name, ih]

theorem fills_member (m : String × Value) (member : m ∈ fields) : ∃ f ∈ shape, Fill state f m := by
  induction fills with
  | nil => cases member
  | cons first _ ih =>
      rcases List.mem_cons.mp member with rfl | inside
      · exact ⟨_, List.mem_cons_self, first⟩
      · obtain ⟨f, known, fill⟩ := ih inside
        exact ⟨f, List.mem_cons_of_mem _ known, fill⟩

theorem fills_lacking (seen : List String) : shape.lacking seen = false := by
  rw [lacking]
  induction fills with
  | nil => rfl
  | cons first _ ih => rw [List.any_cons, first.optional, ih, Bool.false_and, Bool.false_or]

theorem find_unknown (name : String) (foreign : named fields name = false) :
    (shape.find? fun f => f.name = name) = none := by
  rw [List.find?_eq_none]
  intro f member same
  have known : name ∈ fields.map Prod.fst := by
    rw [fills_names shape state fields fills, List.mem_map]
    exact ⟨f, member, of_decide_eq_true same⟩
  rw [(named_iff fields name).mpr known] at foreign
  cases foreign

variable (names : (shape.map Field.name).Nodup)
include names

-- The parts read so far are those of the names seen. No name of a field comes twice.
theorem read_changed (members : List (String × Value)) (seen : List String)
    (known : ∀ m ∈ members, m ∈ fields ∨ named fields m.1 = false ∧ m.2.whole = true)
    (once : (seen ++ (members.map Prod.fst).filter (named fields)).Nodup) :
    shape.readMembers true seen (members.map fun (k, v) => (some k, v)) (state seen.contains) =
      .ok (state fun n => seen.contains n || named fields n && named members n) := by
  induction members generalizing seen with
  | nil =>
      rw [List.map_nil, readMembers, fills_lacking shape state fields fills]
      simp only [named, List.map_nil, List.contains_nil, Bool.and_false, Bool.or_false]
      rfl
  | cons m rest ih =>
      obtain ⟨here, behind⟩ := List.forall_mem_cons.mp known
      rw [List.map_cons, readMembers]
      rw [List.map_cons] at once
      rcases here with kept | ⟨foreign, whole⟩
      · obtain ⟨f, member, fill⟩ := fills_member shape state fields fills m kept
        have found : (shape.find? fun g => g.name = m.1) = some f := by
          rw [fill.name]
          exact find_name shape names f member
        have among : named fields m.1 = true := (named_iff fields m.1).mpr (List.mem_map_of_mem kept)
        rw [List.filter_cons_of_pos among, List.perm_middle.nodup_iff] at once
        have unseen : seen.contains m.1 = false := by
          rw [List.contains_eq_mem, decide_eq_false_iff_not]
          exact fun old => (List.nodup_cons.mp once).1 (List.mem_append_left _ old)
        have grown := ih (m.1 :: seen) behind once
        rw [found]
        dsimp only
        rw [unseen, fill.reads, ← fill.name]
        rw [← seen_field fields rest seen m among]
        exact grown
      · rw [find_unknown shape state fields fills m.1 foreign]
        rw [List.filter_cons_of_neg (by simp [foreign])] at once
        dsimp only
        rw [if_pos whole, ih seen behind once, seen_foreign fields rest seen m foreign]

theorem read_excerpt (start : σ) (blank : state (fun _ => false) = start) (kept members : List (String × Value))
    (cut : Excerpt fields kept members) : (shape.codec start).read (.record members) = .ok (state (named kept)) := by
  obtain ⟨sublist, foreign, arranged, unknown⟩ := cut
  have among : ∀ name ∈ kept.map Prod.fst, named fields name = true := fun name member =>
    (named_iff fields name).mpr ((sublist.map Prod.fst).subset member)
  have apart : ∀ name ∈ foreign.map Prod.fst, named fields name = false :=
    List.forall_mem_map.mpr fun m member => (unknown m member).1
  have known : ∀ m ∈ members, m ∈ fields ∨ named fields m.1 = false ∧ m.2.whole = true := by
    intro m member
    exact (List.mem_append.mp (arranged.mem_iff.mp member)).imp (sublist.subset ·) (unknown m)
  have once : ((members.map Prod.fst).filter (named fields)).Nodup := by
    have same := (arranged.map Prod.fst).filter (named fields)
    have none : (foreign.map Prod.fst).filter (named fields) = [] :=
      List.filter_eq_nil_iff.mpr fun name member => by simp [apart name member]
    rw [List.map_append, List.filter_append, List.filter_eq_self.mpr among, none, List.append_nil] at same
    rw [← fills_names shape state fields fills] at names
    exact same.nodup_iff.mpr (names.sublist (sublist.map Prod.fst))
  have read := read_changed shape state fields fills names members [] known once
  have none : state ([] : List String).contains = start := blank
  rw [none] at read
  refine read.trans (congrArg (fun p => Except.ok (state p)) (funext fun n => ?_))
  have parts : named members n = true ↔ n ∈ kept.map Prod.fst ∨ n ∈ foreign.map Prod.fst := by
    rw [named_iff, (arranged.map Prod.fst).mem_iff, List.map_append, List.mem_append]
  rw [Bool.eq_iff_iff, List.contains_nil, Bool.false_or, Bool.and_eq_true, parts, named_iff kept n]
  constructor
  · rintro ⟨field, inside | outside⟩
    · exact inside
    · rw [apart n outside] at field
      cases field
  · exact fun inside => ⟨among n inside, .inl inside⟩

end

theorem record_injective (fields members : List (String × Value)) (same : Value.record fields = .record members) :
    fields = members := by
  have lists := (Value.object.inj same).1
  refine List.map_injective_iff.mpr ?_ lists
  rintro ⟨k, v⟩ ⟨l, w⟩ both
  cases both
  rfl

theorem cut_read (shape : Shape σ) (start : σ) (only : σ → (String → Bool) → σ) (s : σ)
    (fills : List.Forall₂ (Fill (only s)) shape (shape.map fun f => (f.name, f.write s)))
    (names : (shape.map Field.name).Nodup) (blank : only s (fun _ => false) = start) (v : Value) (t : σ)
    (cut : (shape.codec start).Cut only s v t) : (shape.codec start).read v = .ok t := by
  obtain ⟨fields, kept, members, written, excerpt, rfl, rfl⟩ := cut
  obtain rfl := record_injective _ _ written
  exact read_excerpt shape (only s) _ fills names start blank kept members excerpt

-- Nothing is changed, and everything is still there.
theorem cut_whole (shape : Shape σ) (start : σ) (only : σ → (String → Bool) → σ) (s : σ)
    (whole : only s (named (shape.map fun f => (f.name, f.write s))) = s) :
    (shape.codec start).Cut only s ((shape.codec start).write s) s :=
  ⟨_, _, _, rfl, excerpt_whole _, rfl, whole.symm⟩

end Shape

theorem each_whole (R : α → β → α → Prop) (f : α → β) (as : List α) (whole : ∀ a, R a (f a) a) :
    Each R as (as.map f) as := by
  induction as with
  | nil => exact .nil
  | cons a rest ih => exact .cons (whole a) ih

/-! ## Texts -/

-- A text of the value: blanks, and how strings and numbers are spelled, are left open.
def Spells (text : String) (v : Value) : Prop := ∃ rest, front text.toList = (v, rest) ∧ ended rest = true

theorem spells_print (v : Value) (printable : v.Printable) : Spells v.print v := by
  refine ⟨some [], ?_, rfl⟩
  rw [Value.print, String.toList_ofList]
  exact front_read v printable

theorem parse_spelled (codec : Codec α) (text : String) (v : Value) (a : α) (spells : Spells text v)
    (read : codec.read v = .ok a) : codec.parse text = .ok a := by
  obtain ⟨rest, scanned, complete⟩ := spells
  rw [Codec.parse, scanned]
  dsimp only
  rw [read]
  exact if_pos complete

end QueryDraft.Json
