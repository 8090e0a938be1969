import WorkspaceSync.PackageManifest
import WorkspaceSync.Proofs.Except
import WorkspaceSync.Proofs.Wire.RoundTrip

/-!
# Reads stay within the message

Every read moves on over bytes of the message, and over some if it succeeds; a read that fails
leaves the reader within the message too. This bounds the loops that decode messages: they have no
counter of their own, but read no more keys than the message has bytes. `Cursor` does the arithmetic
of positions in words of 64 bits, where an addition may overflow and a cut may be out of range;
neither happens, and what is read is the same.
-/

namespace WorkspaceSync.Wire

/-- What a reader can be asked for. -/
inductive Read where
  | key
  | content (k : Kind)
  | skip (t : WireType)
  deriving DecidableEq, Repr

/-- What a read gives. -/
inductive Outcome where
  | key (field : UInt32) (t : WireType)
  | content (c : Content)
  | skipped
  deriving DecidableEq, Repr

namespace Read

/-- The type of the value that a read takes from the message. -/
def wireType : Read → WireType
  | key => .varint
  | content k => k.wireType
  | skip t => t

/-- What a read makes of the value that it took at an offset. -/
def outcome (offset : Nat) : Read → RecordValue → Except WireError Outcome
  | key, .varint k =>
    let field := (k >>> 3).toUInt32
    if field = 0 then .error (.invalidFieldNumber offset)
    else
      match WireType.ofBits? (k &&& 7) with
      | some t => .ok (.key field t)
      | none => .error (.unsupportedWireType (k &&& 7) offset)
  | content .varint, .varint v => .ok (.content (.varint v))
  | content .bool, .varint v => .ok (.content (.bool (v != 0)))
  | content .bytes, .bytes b => .ok (.content (.bytes b))
  | content .string, .bytes b =>
    match Bytes.toText? b with
    | some s => .ok (.content (.string s))
    | none => .error (.invalidUtf8 offset)
  | _, _ => .ok .skipped

end Read

namespace Reader

/-- Takes a value from the message. -/
def take (r : Reader) : WireType → Except WireError RecordValue × Reader
  | .varint => r.varint.map (Except.map .varint) id
  | .fixed64 => (r.fixed 8).map (Except.map fun _ => .fixed) id
  | .lengthDelimited => r.bytes.map (Except.map .bytes) id
  | .fixed32 => (r.fixed 4).map (Except.map fun _ => .fixed) id

def perform (r : Reader) : Read → Except WireError Outcome × Reader
  | .key => r.key.map (Except.map fun k => .key k.1 k.2) id
  | .content k => (r.content k).map (Except.map .content) id
  | .skip t => (r.skip t).map (Except.map fun _ => .skipped) id

/-- One read after the other, those that fail included. -/
def performs (r : Reader) : List Read → List (Except WireError Outcome) × Reader
  | [] => ([], r)
  | x :: xs =>
    let rest := (r.perform x).2.performs xs
    ((r.perform x).1 :: rest.1, rest.2)

/-- A read takes a value, and what it then makes of it moves no further. -/
theorem perform_eq (r : Reader) (x : Read) :
    r.perform x = ((r.take x.wireType).1.bind (x.outcome r.offset), (r.take x.wireType).2) := by
  cases x with
  | key =>
    simp only [perform, Read.wireType, take, key]
    cases r.varint with
    | mk result r' =>
      cases result with
      | error e => rfl
      | ok k =>
        simp only [Read.outcome, Prod.map, Except.map, Except.bind]
        by_cases unnumbered : (k >>> 3).toUInt32 = 0
        · simp only [if_pos unnumbered, id]
        · simp only [if_neg unnumbered]
          cases WireType.ofBits? (k &&& 7) <;> rfl
  | content k =>
    cases k with
    | varint =>
      simp only [perform, content, Read.wireType, Kind.wireType, take]
      rcases r.varint with ⟨_ | _, _⟩ <;> rfl
    | bool =>
      simp only [perform, content, bool, Read.wireType, Kind.wireType, take]
      rcases r.varint with ⟨_ | _, _⟩ <;> rfl
    | bytes =>
      simp only [perform, content, Read.wireType, Kind.wireType, take]
      rcases r.bytes with ⟨_ | _, _⟩ <;> rfl
    | string =>
      simp only [perform, content, string, Read.wireType, Kind.wireType, take]
      rcases r.bytes with ⟨_ | b, _⟩
      · rfl
      · simp only [Read.outcome, Prod.map, Except.map, Except.bind]
        cases Bytes.toText? b <;> rfl
  | skip t =>
    cases t with
    | varint =>
      simp only [perform, skip, Read.wireType, take]
      rcases r.varint with ⟨_ | _, _⟩ <;> rfl
    | lengthDelimited =>
      simp only [perform, skip, Read.wireType, take]
      rcases r.bytes with ⟨_ | _, _⟩ <;> rfl
    | fixed64 =>
      simp only [perform, skip, Read.wireType, take]
      rcases r.fixed 8 with ⟨_ | _, _⟩ <;> rfl
    | fixed32 =>
      simp only [perform, skip, Read.wireType, take]
      rcases r.fixed 4 with ⟨_ | _, _⟩ <;> rfl

/-! ## Moving on -/

theorem scanVarint_of_tooLong {fuel shift : Nat} {b : Bytes}
    (h : scanVarint fuel shift b = .tooLong) : fuel ≤ b.length := by
  induction fuel generalizing shift b with
  | zero => exact Nat.zero_le _
  | succ fuel ih =>
    cases b with
    | nil => simp [scanVarint] at h
    | cons c b =>
      rw [scanVarint] at h
      split at h
      · cases h
      · split at h
        · cases h
        · have := ih h
          simp only [List.length_cons]
          omega

/-- A read has moved on over bytes that followed, and over some if it gave a value. -/
structure Moves {α : Type} (r : Reader) (read : Except WireError α × Reader) : Prop where
  passes : ∃ code, r.Passes code read.2
  forward : ∀ v, read.1 = .ok v → r.offset < read.2.offset

variable {α β : Type} {r r' : Reader} {result : Except WireError α}
  {read : Except WireError α × Reader}

theorem moves_advance {n : Nat} (within : n ≤ r.rest.length) (some : ∀ v, result = .ok v → 0 < n) :
    r.Moves (result, r.advance n) where
  passes := ⟨_, passes_advance within⟩
  forward v ok := Nat.lt_add_of_pos_right (some v ok)

theorem moves_error (r : Reader) (e : WireError) :
    r.Moves ((.error e, r) : Except WireError α × _) where
  passes := ⟨[], rfl, rfl⟩
  forward := nofun

/-- What is made of a value moves no further. -/
theorem Moves.of_ok {after : Except WireError β} (h : r.Moves read)
    (value : ∀ w, after = .ok w → ∃ v, read.1 = .ok v) : r.Moves (after, read.2) where
  passes := h.passes
  forward w ok := by
    obtain ⟨v, ok'⟩ := value w ok
    exact h.forward v ok'

theorem moves_varint (r : Reader) : r.Moves r.varint := by
  unfold varint
  split
  · rename_i scanned
    obtain ⟨some, within⟩ := scanVarint_size scanned
    exact moves_advance within fun _ _ => some
  · exact moves_advance (Nat.le_refl _) nofun
  · rename_i scanned
    exact moves_advance (scanVarint_of_tooLong scanned) nofun

theorem moves_fixed (r : Reader) {width : Nat} (wide : 0 < width) : r.Moves (r.fixed width) := by
  unfold fixed
  split
  · rename_i within
    exact moves_advance within fun _ _ => wide
  · exact moves_error r _

theorem moves_bytes (r : Reader) : r.Moves r.bytes := by
  have size := moves_varint r
  unfold bytes
  split
  · rename_i e m read
    rw [read] at size
    exact size.of_ok nofun
  · rename_i n m read
    rw [read] at size
    obtain ⟨code, passes⟩ := size.passes
    split
    · rename_i within
      refine ⟨⟨_, passes.trans (passes_advance within)⟩, fun _ _ => ?_⟩
      exact Nat.lt_of_lt_of_le (size.forward n rfl) (Nat.le_add_right _ _)
    · exact size.of_ok nofun

theorem moves_take (r : Reader) (t : WireType) : r.Moves (r.take t) := by
  have mapped {γ δ : Type} {read : Except WireError γ × Reader} (f : γ → δ) (h : r.Moves read) :
      r.Moves (read.map (Except.map f) id) := by
    obtain ⟨result, m⟩ := read
    apply h.of_ok
    intro w ok
    obtain ⟨v, value, -⟩ := map_eq_ok_iff.1 ok
    exact ⟨v, value⟩
  cases t with
  | varint => exact mapped _ (moves_varint r)
  | fixed64 => exact mapped _ (moves_fixed r (by decide))
  | lengthDelimited => exact mapped _ (moves_bytes r)
  | fixed32 => exact mapped _ (moves_fixed r (by decide))

theorem moves_perform (r : Reader) (x : Read) : r.Moves (r.perform x) := by
  rw [perform_eq]
  apply (moves_take r x.wireType).of_ok
  intro w ok
  obtain ⟨v, value, -⟩ := bind_eq_ok_iff.1 ok
  exact ⟨v, value⟩

/-! ## Positions in the message -/

/-- A reader is somewhere in the message `b`. -/
structure Within (r : Reader) (b : Bytes) : Prop where
  inside : r.offset ≤ b.length
  rest : r.rest = b.drop r.offset

variable {b : Bytes}

theorem within_ofBytes (b : Bytes) : (ofBytes b).Within b where
  inside := Nat.zero_le _
  rest := rfl

theorem Within.length_rest (h : r.Within b) : r.offset + r.rest.length = b.length := by
  rw [h.rest, List.length_drop, Nat.add_sub_cancel' h.inside]

theorem Within.of_passes {code : Bytes} (h : r.Within b) (passes : r.Passes code r') :
    r'.Within b where
  inside := by
    have size := congrArg List.length passes.rest
    rw [List.length_append] at size
    have := h.length_rest
    rw [passes.offset]
    omega
  rest := by
    rw [passes.offset, ← List.drop_drop, ← h.rest, passes.rest, List.drop_left]

theorem Within.perform (h : r.Within b) (x : Read) : (r.perform x).2.Within b := by
  obtain ⟨code, passes⟩ := (moves_perform r x).passes
  exact h.of_passes passes

theorem Within.performs (h : r.Within b) (xs : List Read) : (r.performs xs).2.Within b := by
  induction xs generalizing r with
  | nil => exact h
  | cons x xs ih => exact ih (h.perform x)

/-! ## Loops over records -/

section Fold

variable {σ : Type} {step : σ → Record → Except WireError σ}

/-- Folds over the records that are left, as long as it has to read no more than `keys` keys. -/
def foldRecordsWithin (step : σ → Record → Except WireError σ) (keys : Nat) (s : σ) (r : Reader) :
    Option (Except WireError σ) :=
  if r.atEnd then some (.ok s)
  else
    match r.key with
    | (.error e, _) => some (.error e)
    | (.ok (field, t), m) =>
      match keys with
      | 0 => none
      | keys + 1 =>
        match m.value t with
        | .error e => some (.error e)
        | .ok (v, r') =>
          match step s ⟨field, v, m.offset⟩ with
          | .error e => some (.error e)
          | .ok s' => foldRecordsWithin step keys s' r'

/-- A fold ends before it has read more keys than there are bytes. -/
theorem foldRecordsWithin_eq {keys : Nat} (enough : r.rest.length ≤ keys) (s : σ) :
    foldRecordsWithin step keys s r = some (r.foldRecords step s) := by
  induction keys generalizing r s with
  | zero =>
    have nothing : r.rest = [] := List.length_eq_zero_iff.1 (Nat.le_zero.1 enough)
    rw [foldRecordsWithin, if_pos (by simp [atEnd, nothing]), foldRecords_of_atEnd nothing]
  | succ keys ih =>
    by_cases nothing : r.rest = []
    · rw [foldRecordsWithin, if_pos (by simp [atEnd, nothing]), foldRecords_of_atEnd nothing]
    · rw [foldRecordsWithin, if_neg (by simpa [atEnd] using nothing)]
      rcases key : r.key with ⟨e | ⟨field, t⟩, m⟩
      · have failed : r.record = .error e := by rw [record, key]
        rw [foldRecords_of_error nothing failed]
      · have shorter := key_advances key
        dsimp only
        rcases value : m.value t with e | ⟨v, r'⟩
        · have failed : r.record = .error e := by simp only [record, key, value]
          rw [foldRecords_of_error nothing failed]
        · have read : r.record = .ok (⟨field, v, m.offset⟩, r') := by
            simp only [record, key, value]
          rw [foldRecords_of_record read]
          dsimp only
          cases step s ⟨field, v, m.offset⟩ with
          | error e => rfl
          | ok s' =>
            have rest := value_le value
            exact ih (by omega) s'

end Fold

end Reader

theorem foldMessage_within {σ : Type} {step : σ → Record → Except WireError σ} (b : Bytes) (s : σ) :
    (Reader.ofBytes b).foldRecordsWithin step b.length s = some (foldMessage step s b) := by
  apply Reader.foldRecordsWithin_eq
  exact Nat.le_refl _

end WorkspaceSync.Wire
