import QueryDraft.Json.Codec
import QueryDraft.Proofs.JsonText

/-!
What codecs read back of the values they wrote.
-/

set_option autoImplicit false

namespace QueryDraft.Json

open Number

variable {α σ : Type}

def outcome : Option α → Except Fault α
  | some a => .ok a
  | none => .error .malformed

-- A value has a text, and `b` is what is read back of it.
structure Codec.Returns (codec : Codec α) (a : α) (b : Option α) : Prop where
  printable : (codec.write a).Printable
  reads : codec.read (codec.write a) = outcome b

def Codec.Lossless (codec : Codec α) : Prop := ∀ a, codec.Returns a (some a)

theorem parse_print (codec : Codec α) (a : α) (b : Option α) (law : codec.Returns a b) :
    codec.parse (codec.print a) = outcome b := by
  have scanned : front (codec.print a).toList = (codec.write a, some []) := by
    rw [Codec.print, Value.print, String.toList_ofList]
    exact front_read _ law.printable
  rw [Codec.parse, scanned]
  dsimp only
  rw [law.reads]
  cases b <;> rfl

/-! ## Plain values -/

theorem text_lossless : Codec.text.Lossless := fun _ => ⟨rfl, rfl⟩

theorem flag_lossless : Codec.flag.Lossless := fun _ => ⟨trivial, rfl⟩

theorem amount_of_natural (n : Nat) (small : n < 2 ^ 64) :
    amount (.ofInt n) = some (.natural (UInt64.ofNat n)) := by
  simp [amount, Numeral.ofInt, valueOf_digitsOf, small]

theorem natural_lossless : Codec.natural.Lossless := by
  intro n
  refine ⟨proper_of_int n.toNat, ?_⟩
  have read := amount_of_natural n.toNat n.toNat_lt
  simp [Codec.natural, read, outcome]

theorem choice_lossless (name : α → String) (all : List α)
    (found : ∀ a, (all.find? fun b => name b = name a) = some a) : (Codec.choice name all).Lossless := by
  intro a
  refine ⟨rfl, ?_⟩
  simp [Codec.choice, Value.string, found, outcome]

/-! ## Options and lists -/

theorem optional_some (item : Codec α) (a : α) (b : Option α) (law : item.Returns a b) (solid : item.write a ≠ .null) :
    (Codec.optional item).Returns (some a) (b.map some) := by
  refine ⟨law.printable, ?_⟩
  have read := law.reads
  simp only [Codec.optional]
  rw [read]
  cases b <;> rfl

theorem optional_lossless (item : Codec α) (law : item.Lossless) (solid : ∀ a, item.write a ≠ .null) :
    (Codec.optional item).Lossless := by
  intro a
  cases a with
  | none => exact ⟨trivial, rfl⟩
  | some a => exact optional_some item a (some a) (law a) (solid a)

theorem read_items (item : Codec α) (again : α → Option α) (items : List α)
    (law : ∀ a ∈ items, item.Returns a (again a)) :
    (items.map item.write).mapM item.read = outcome (items.mapM again) := by
  induction items with
  | nil => rfl
  | cons a rest ih =>
      have first := (law a List.mem_cons_self).reads
      rw [List.map_cons, List.mapM_cons, List.mapM_cons, first, ih fun b member => law b (List.mem_cons_of_mem a member)]
      cases again a with
      | none => rfl
      | some b => cases rest.mapM again <;> rfl

theorem list_returns (item : Codec α) (again : α → Option α) (items : List α)
    (law : ∀ a ∈ items, item.Returns a (again a)) : (Codec.list item).Returns items (items.mapM again) where
  printable := by
    apply printable_list
    intro v member
    obtain ⟨a, inside, rfl⟩ := List.mem_map.mp member
    exact (law a inside).printable
  reads := by
    have read := read_items item again items law
    simp only [Codec.list, Value.list, read]
    cases items.mapM again <;> rfl

theorem list_lossless (item : Codec α) (law : item.Lossless) : (Codec.list item).Lossless := by
  intro items
  have lists := list_returns item some items fun a _ => law a
  have same : items.mapM some = some items := List.mapM_pure.trans (congrArg some (List.map_id items))
  rwa [same] at lists

/-! ## Records -/

-- What a field of `s` is written as, and what reading it does to the fields read before.
structure Field.Returns (f : Field σ) (s : σ) (put : σ → Option σ) : Prop where
  printable : (f.write s).Printable
  reads : ∀ t, f.read (f.write s) t = outcome (put t)

theorem field_returns (name : String) (codec : Codec α) (get : σ → α) (set : α → σ → σ) (s : σ) (b : Option α)
    (law : codec.Returns (get s) b) : (Field.of name codec get set).Returns s fun t => b.map fun a => set a t where
  printable := law.printable
  reads t := by
    have read := law.reads
    simp only [Field.of, read]
    cases b <;> rfl

theorem field_lossless (name : String) (codec : Codec α) (get : σ → α) (set : α → σ → σ) (s : σ)
    (law : codec.Lossless) : (Field.of name codec get set).Returns s fun t => some (set (get s) t) :=
  field_returns name codec get set s (some (get s)) (law (get s))

theorem needed_returns (f : Field σ) (s : σ) (put : σ → Option σ) (law : f.Returns s put) : f.needed.Returns s put :=
  ⟨law.printable, law.reads⟩

-- Field by field in the order of the shape.
inductive Shape.Returns (s : σ) : Shape σ → (σ → Option σ) → Prop
  | nil : Shape.Returns s [] some
  | cons {f : Field σ} {put : σ → Option σ} {shape : Shape σ} {puts : σ → Option σ} :
      f.Returns s put → Shape.Returns s shape puts → Shape.Returns s (f :: shape) fun t => (put t).bind puts

namespace Shape

theorem fields_printable (s : σ) (shape : Shape σ) (puts : σ → Option σ) (law : Shape.Returns s shape puts) :
    ∀ f ∈ shape, (f.write s).Printable := by
  induction law with
  | nil =>
      intro f member
      cases member
  | cons first _ ih =>
      intro f member
      rcases List.mem_cons.mp member with rfl | rest
      · exact first.printable
      · exact ih f rest

theorem find_name (shape : Shape σ) (names : (shape.map Field.name).Nodup) (f : Field σ) (member : f ∈ shape) :
    (shape.find? fun g => g.name = f.name) = some f := by
  induction shape with
  | nil => cases member
  | cons g rest ih =>
      obtain ⟨fresh, names⟩ := List.nodup_cons.mp names
      rcases List.mem_cons.mp member with rfl | inside
      · simp
      · have other : g.name ≠ f.name := by
          intro same
          exact fresh (same ▸ List.mem_map_of_mem inside)
        rw [List.find?_cons_of_neg (by simpa using other)]
        exact ih names inside

theorem lacking_all (shape : Shape σ) (seen : List String) (all : ∀ f ∈ shape, f.name ∈ seen) :
    shape.lacking seen = false := by
  rw [lacking, List.any_eq_false]
  intro f member
  simp [all f member]

-- The members of an object that the shape wrote come in the order of the shape, so that the names seen
-- are those of the fields before.
theorem read_members (s : σ) (shape before after : Shape σ) (puts : σ → Option σ) (law : Shape.Returns s after puts)
    (split : shape = before ++ after) (names : (shape.map Field.name).Nodup) (seen : List String)
    (passed : ∀ name, name ∈ seen ↔ name ∈ before.map Field.name) (t : σ) :
    shape.readMembers true seen (after.map fun f => (some f.name, f.write s)) t = outcome (puts t) := by
  induction law generalizing before seen t with
  | nil =>
      have complete : shape.lacking seen = false := by
        apply lacking_all
        intro f member
        rw [split, List.append_nil] at member
        exact (passed f.name).mpr (List.mem_map_of_mem member)
      simp [readMembers, complete, outcome]
  | @cons f put rest puts first _ ih =>
      have found := find_name shape names f (by simp [split])
      have unseen : seen.contains f.name = false := by
        rw [split, List.map_append, List.map_cons, List.nodup_append] at names
        rw [List.contains_eq_mem, decide_eq_false_iff_not, passed]
        intro member
        exact names.2.2 f.name member f.name (by simp) rfl
      have next : ∀ name, name ∈ f.name :: seen ↔ name ∈ (before ++ [f]).map Field.name := by
        intro name
        simp [passed, or_comm]
      rw [List.map_cons, readMembers, found]
      dsimp only
      rw [unseen, first.reads]
      cases put t with
      | none => rfl
      | some t => exact ih (before ++ [f]) (by simp [split]) (f.name :: seen) next t

theorem codec_returns (s : σ) (shape : Shape σ) (start : σ) (puts : σ → Option σ) (b : Option σ)
    (law : Shape.Returns s shape puts) (names : (shape.map Field.name).Nodup) (same : puts start = b) :
    (shape.codec start).Returns s b where
  printable := by
    apply printable_record
    intro m member
    obtain ⟨f, inside, rfl⟩ := List.mem_map.mp member
    exact fields_printable s shape puts law f inside
  reads := by
    have read := read_members s shape [] shape puts law rfl names [] (by simp) start
    rw [same] at read
    simpa [codec, Value.record, Function.comp_def] using read

end Shape
end QueryDraft.Json
