import Mathlib.Data.List.Nodup
import WorkspaceSync.Json.Decode
import WorkspaceSync.Proofs.Except

/-!
# Objects with more and with fewer members

A value can be written in several ways that decode alike: an object may have members that its
structure does not know, and may lack members that hold their default. `MembersVary` says so for one
object, given the fields of its structure; how the values of the fields vary is part of them. A
decoder is right about a value if it reads every variation of it as the same.
-/

namespace WorkspaceSync.Json

/-- A member that a structure knows: how its value may vary, and what the value is taken to be where
the member is left out. -/
structure Field where
  name : String
  variation : Json → Json → Prop
  default? : Option Json

/-- Members with unknown names are added to an object and defaults are left out. -/
inductive MembersVary (fields : List Field) :
    List (String × Json) → List (String × Json) → Prop
  | nil : MembersVary fields [] []
  | keep {f j j' ms ms'} (known : f ∈ fields) (value : f.variation j j')
      (rest : MembersVary fields ms ms') :
      MembersVary fields ((f.name, j) :: ms) ((f.name, j') :: ms')
  | leaveOut {f j ms ms'} (known : f ∈ fields) (default : f.default? = some j)
      (rest : MembersVary fields ms ms') : MembersVary fields ((f.name, j) :: ms) ms'
  | add {name j ms ms'} (unknown : name ∉ fields.map Field.name)
      (rest : MembersVary fields ms ms') : MembersVary fields ms ((name, j) :: ms')

inductive ObjectVaries (fields : List Field) : Json → Json → Prop
  | members {ms ms'} (vary : MembersVary fields ms ms') :
      ObjectVaries fields (.object ms) (.object ms')

inductive ListVaries (variation : Json → Json → Prop) : Json → Json → Prop
  | items {js js'} (vary : List.Forall₂ variation js js') :
      ListVaries variation (.array js) (.array js')

/-- A value that may be `null` varies as others do where it is not. -/
inductive OptionVaries (variation : Json → Json → Prop) : Json → Json → Prop
  | null : OptionVaries variation .null .null
  | value {j j'} (given : j ≠ .null) (vary : variation j j') : OptionVaries variation j j'

/-! ## Members by name -/

theorem member?_cons (name : String) (m : String × Json) (ms : List (String × Json)) :
    member? name (m :: ms) = (member? name ms).or (if m.1 = name then some m.2 else none) := by
  unfold member?
  rw [List.reverse_cons, List.find?_append, Option.map_or]
  congr 1
  by_cases same : m.1 = name
  · simp [same]
  · simp [same]

theorem member?_eq_none_iff {name : String} {ms : List (String × Json)} :
    member? name ms = none ↔ name ∉ ms.map Prod.fst := by
  induction ms with
  | nil => exact ⟨fun _ => List.not_mem_nil, fun _ => rfl⟩
  | cons m ms ih =>
    rw [member?_cons, Option.or_eq_none_iff, ih, List.map_cons, List.mem_cons, not_or, and_comm]
    apply and_congr_left
    intro _
    constructor
    · intro absent same
      rw [if_pos same.symm] at absent
      cases absent
    · intro other
      exact if_neg (Ne.symm other)

namespace MembersVary

variable {fields : List Field} {ms ms' : List (String × Json)} {f : Field}

theorem not_mem_names (vary : MembersVary fields ms ms') (known : f ∈ fields)
    (absent : f.name ∉ ms.map Prod.fst) : f.name ∉ ms'.map Prod.fst := by
  induction vary with
  | nil => exact absent
  | keep _ _ _ ih =>
    rw [List.map_cons, List.mem_cons, not_or] at absent ⊢
    exact ⟨absent.1, ih absent.2⟩
  | leaveOut _ _ _ ih =>
    rw [List.map_cons, List.mem_cons, not_or] at absent
    exact ih absent.2
  | add unknown _ ih =>
    rw [List.map_cons, List.mem_cons, not_or]
    refine ⟨?_, ih absent⟩
    rintro rfl
    exact unknown (List.mem_map_of_mem known)

/-- A member that is written once is still there and has varied, or it is left out as a default. -/
theorem member? (vary : MembersVary fields ms ms') (distinct : (fields.map Field.name).Nodup)
    (once : (ms.map Prod.fst).Nodup) (known : f ∈ fields) {j : Json} (written : (f.name, j) ∈ ms) :
    (∃ j', Json.member? f.name ms' = some j' ∧ f.variation j j') ∨
      Json.member? f.name ms' = none ∧ f.default? = some j := by
  induction vary with
  | nil => cases written
  | @keep g i i' ms ms' known' value rest ih =>
    obtain ⟨first, once⟩ := List.nodup_cons.1 once
    rw [member?_cons]
    rcases List.mem_cons.1 written with here | later
    · obtain ⟨name, rfl⟩ := Prod.mk.inj here
      obtain rfl : f = g := List.inj_on_of_nodup_map distinct known known' name
      have absent := member?_eq_none_iff.2 (rest.not_mem_names known first)
      refine .inl ⟨i', ?_, value⟩
      rw [absent, Option.none_or, if_pos rfl]
    · have other : g.name ≠ f.name := by
        intro same
        exact first (List.mem_map.2 ⟨_, later, same.symm⟩)
      rw [if_neg other, Option.or_none]
      exact ih once later
  | @leaveOut g i ms ms' known' default rest ih =>
    obtain ⟨first, once⟩ := List.nodup_cons.1 once
    rcases List.mem_cons.1 written with here | later
    · obtain ⟨name, rfl⟩ := Prod.mk.inj here
      obtain rfl : f = g := List.inj_on_of_nodup_map distinct known known' name
      exact .inr ⟨member?_eq_none_iff.2 (rest.not_mem_names known first), default⟩
    · exact ih once later
  | @add name _ _ ms' unknown rest ih =>
    have other : name ≠ f.name := by
      rintro rfl
      exact unknown (List.mem_map_of_mem known)
    rw [member?_cons, if_neg other, Option.or_none]
    exact ih once written

/-- What is left of an object and of its variation without one of the fields. -/
theorem erase (vary : MembersVary (f :: fields) ms ms') (apart : f.name ∉ fields.map Field.name) :
    MembersVary fields (ms.filter (·.1 ≠ f.name)) (ms'.filter (·.1 ≠ f.name)) := by
  have other : ∀ g ∈ fields, g.name ≠ f.name := by
    intro g known same
    exact apart (same ▸ List.mem_map_of_mem known)
  induction vary with
  | nil => exact .nil
  | keep known value _ ih =>
    rcases List.mem_cons.1 known with rfl | known
    · rw [List.filter_cons_of_neg (by simp), List.filter_cons_of_neg (by simp)]
      exact ih
    · rw [List.filter_cons_of_pos (by simpa using other _ known),
        List.filter_cons_of_pos (by simpa using other _ known)]
      exact .keep known value ih
  | leaveOut known default _ ih =>
    rcases List.mem_cons.1 known with rfl | known
    · rw [List.filter_cons_of_neg (by simp)]
      exact ih
    · rw [List.filter_cons_of_pos (by simpa using other _ known)]
      exact .leaveOut known default ih
  | add unknown _ ih =>
    rw [List.map_cons, List.mem_cons, not_or] at unknown
    rw [List.filter_cons_of_pos (by simpa using unknown.1)]
    exact .add unknown.2 ih

end MembersVary

/-! ## Decoders and variations -/

/-- A decoder reads a value and all its variations as the same. -/
structure Decodes {α : Type} (d : Decoder α) (variation : Json → Json → Prop) (j : Json) (a : α) :
    Prop where
  same : variation j j
  read : ∀ p j', variation j j' → d p j' = .ok a

def RefusesNull {α : Type} (d : Decoder α) : Prop := ∀ p a, d p .null ≠ .ok a

variable {α : Type} {d : Decoder α} {variation : Json → Json → Prop} {encode : α → Json}

theorem decodes_text (s : String) : Decodes Decoder.text Eq (.string s) s where
  same := rfl
  read := by
    rintro p _ rfl
    rfl

theorem decodes_boolean (b : Bool) : Decodes Decoder.boolean Eq (.bool b) b where
  same := rfl
  read := by
    rintro p _ rfl
    rfl

theorem decodes_parsed {ε : Type} {parse : String → Except ε α} {message : ε → String} {s : String}
    {a : α} (read : parse s = .ok a) : Decodes (Decoder.parsed parse message) Eq (.string s) a where
  same := rfl
  read := by
    rintro p _ rfl
    unfold Decoder.parsed Decoder.text
    dsimp only
    rw [read]
    rfl

theorem decodes_list {l : List α} (parts : ∀ a ∈ l, Decodes d variation (encode a) a) :
    Decodes d.list (ListVaries variation) (.array (l.map encode)) l where
  same := by
    apply ListVaries.items
    rw [List.forall₂_same]
    intro j written
    obtain ⟨a, mem, rfl⟩ := List.mem_map.1 written
    exact (parts a mem).same
  read := by
    rintro p _ ⟨vary⟩
    show List.mapM (d p) _ = _
    rw [List.forall₂_map_left_iff] at vary
    induction vary with
    | nil => rfl
    | cons head _ ih =>
      rw [List.mapM_cons, (parts _ List.mem_cons_self).read p _ head,
        ih fun a mem => parts a (List.mem_cons_of_mem _ mem)]
      rfl

theorem Decoder.optional_of_ok {p : Place} {j : Json} {a : α} (refuses : RefusesNull d)
    (read : d p j = .ok a) : d.optional p j = .ok (some a) := by
  cases j with
  | null => exact absurd read (refuses p a)
  | _ => exact congrArg (Except.map some) read

theorem decodes_optional {a : α} (refuses : RefusesNull d)
    (part : Decodes d variation (encode a) a) (given : encode a ≠ .null) :
    Decodes d.optional (OptionVaries variation) (encode a) (some a) where
  same := .value given part.same
  read := by
    intro p j' vary
    apply Decoder.optional_of_ok refuses
    generalize encode a = j at *
    cases vary with
    | null => exact absurd rfl given
    | value _ vary => exact part.read p j' vary

theorem decodes_none : Decodes d.optional (OptionVaries variation) .null none where
  same := .null
  read := by
    intro p j' vary
    cases vary with
    | null => rfl
    | value given _ => exact absurd rfl given

/-! ## Structures -/

/-- A record has a value for a member: one that is decoded, or the default. -/
inductive Record.Gives (r : Record) (name : String) (d : Decoder α) (default? : Option α) (a : α) :
    Prop
  | there {j} (found : member? name r.values = some j) (read : d r.place j = .ok a)
  | missing (absent : member? name r.values = none) (default : default? = some a)

/-- A record has what a member of a structure asks for. -/
structure Member.Accepts (m : Member) (r : Record) : Prop where
  check : ∀ j, member? m.name r.values = some j → m.check r.place j = .ok ()
  there : m.required = true → (member? m.name r.values).isSome

namespace Record.Gives

variable {r : Record} {name : String} {a : α}

theorem get? (gives : r.Gives name d none a) : r.get? name d = some a := by
  cases gives with
  | there found read => rw [Record.get?, found, Option.bind_some, read]; rfl
  | missing _ default => cases default

theorem getD {b : α} (gives : r.Gives name d (some b) a) : (r.get? name d).getD b = a := by
  cases gives with
  | there found read => rw [Record.get?, found, Option.bind_some, read]; rfl
  | missing absent default => rw [Record.get?, absent]; exact Option.some.inj default

theorem join {o : Option α} (gives : r.Gives name d.optional (some none) o) :
    (r.get? name d.optional).join = o := by
  cases gives with
  | there found read => rw [Record.get?, found, Option.bind_some, read]; rfl
  | missing absent default => rw [Record.get?, absent]; exact Option.some.inj default

theorem accepts {default? : Option α} {required : Bool} (gives : r.Gives name d default? a)
    (optional : required = true → default? = none) :
    (Member.ofDecoder name required d).Accepts r where
  check j found := by
    cases gives with
    | there found' read =>
      obtain rfl : _ = j := Option.some.inj (found'.symm.trans found)
      show (d r.place _).map _ = _
      rw [read]
      rfl
    | missing absent _ => cases absent.symm.trans found
  there needed := by
    cases gives with
    | there found _ =>
      show (member? name r.values).isSome
      rw [found]
      rfl
    | missing _ default => cases (optional needed).symm.trans default

end Record.Gives

theorem ofShape_eq_ok {s : Shape} {build : Record → Option α} {p : Place}
    {ms : List (String × Json)} {a : α} (accepts : ∀ m ∈ s.members, m.Accepts ⟨p, ms⟩)
    (built : build ⟨p, ms⟩ = some a) : Decoder.ofShape s build p (.object ms) = .ok a := by
  have checked : Shape.checkAll p ms (s.members.mergeSort fun a b => (compare a.name b.name).isLE) =
      .ok () := by
    apply forM_eq_ok
    intro m mem
    have known : m ∈ s.members := List.mem_mergeSort.1 mem
    split
    · rename_i j found
      exact (accepts m known).check j found
    · rfl
  have complete : s.members.find? (fun m => m.required && (member? m.name ms).isNone) = none := by
    apply List.find?_eq_none.2
    intro m known missing
    obtain ⟨required, absent⟩ := Bool.and_eq_true_iff.1 missing
    have there := (accepts m known).there required
    rw [Option.isNone_iff_eq_none.1 absent] at there
    cases there
  have decoded : s.decode p (.object ms) = .ok ⟨p, ms⟩ := by
    unfold Shape.decode Shape.ofObject
    dsimp only
    rw [checked, complete]
    rfl
  unfold Decoder.ofShape
  dsimp only
  rw [decoded]
  dsimp only
  rw [built]

/-- A record has a variation of what is written for a field, or it has nothing and that is the
default. -/
def Record.Shows (r : Record) (f : Field) (j : Json) : Prop :=
  (∃ j', member? f.name r.values = some j' ∧ f.variation j j') ∨
    member? f.name r.values = none ∧ f.default? = some j

theorem Record.Shows.gives {r : Record} {f : Field} {j : Json} (shows : r.Shows f j)
    {default? : Option α} {a : α} (decodes : Decodes d f.variation j a)
    (default : f.default? = some j → default? = some a) : r.Gives f.name d default? a := by
  rcases shows with ⟨j', found, varied⟩ | ⟨absent, left⟩
  · exact .there found (decodes.read r.place j' varied)
  · exact .missing absent (default left)

/-- An object has all fields of its structure in their order. -/
def Complete : List Field → List (String × Json) → Prop :=
  List.Forall₂ fun f m => m.1 = f.name ∧ f.variation m.2 m.2

theorem Complete.names {fields : List Field} {ms : List (String × Json)}
    (complete : Complete fields ms) : ms.map Prod.fst = fields.map Field.name := by
  induction complete with
  | nil => rfl
  | cons first _ ih => rw [List.map_cons, List.map_cons, first.1, ih]

theorem Complete.vary {fields all : List Field} {ms : List (String × Json)}
    (complete : Complete fields ms) (known : fields ⊆ all) : MembersVary all ms ms := by
  induction complete with
  | nil => exact .nil
  | @cons f m fields ms first _ ih =>
    obtain ⟨name, j⟩ := m
    obtain ⟨rfl, same⟩ := first
    exact .keep (known List.mem_cons_self) same
      (ih fun g mem => known (List.mem_cons_of_mem f mem))

theorem Complete.shows {fields : List Field} {ms : List (String × Json)} {r : Record}
    (complete : Complete fields ms)
    (each : ∀ f ∈ fields, ∀ j, (f.name, j) ∈ ms → r.Shows f j) :
    List.Forall₂ (fun f m => r.Shows f m.2) fields ms := by
  induction complete with
  | nil => exact .nil
  | @cons f m _ _ first _ ih =>
    obtain ⟨name, j⟩ := m
    obtain ⟨rfl, _⟩ := first
    refine .cons (each f List.mem_cons_self j List.mem_cons_self) (ih ?_)
    intro g known i written
    exact each g (List.mem_cons_of_mem _ known) i (List.mem_cons_of_mem _ written)

theorem decodes_ofShape {s : Shape} {build : Record → Option α} {fields : List Field}
    {ms : List (String × Json)} {a : α} (distinct : (fields.map Field.name).Nodup)
    (complete : Complete fields ms)
    (read : ∀ r : Record, List.Forall₂ (fun f m => r.Shows f m.2) fields ms →
      (∀ m ∈ s.members, m.Accepts r) ∧ build r = some a) :
    Decodes (Decoder.ofShape s build) (ObjectVaries fields) (.object ms) a where
  same := .members (complete.vary (List.Subset.refl fields))
  read := by
    rintro p _ ⟨vary⟩
    have once : (ms.map Prod.fst).Nodup := complete.names ▸ distinct
    obtain ⟨accepts, built⟩ := read ⟨p, _⟩
      (complete.shows fun f known j written => vary.member? distinct once known written)
    exact ofShape_eq_ok accepts built

end WorkspaceSync.Json
