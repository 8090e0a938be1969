import WorkspaceSync.Proofs.Wire.Progress

/-!
# Cursors of 64-bit words

A cursor is a message and a position in it, a word of 64 bits. Where a sum of positions is no word,
a group is shifted by more than a word has bits, or bytes beyond the message are asked for, it has
no result at all. A reader of a message that fits into memory is such a cursor: `perform?_cursor`
says that every read has a result there, the one that the reader gives, whatever length a varint
announces.
-/

namespace WorkspaceSync.Wire

/-- The sum of two words, if it is one. -/
def add? (a b : UInt64) : Option UInt64 :=
  if a.toNat + b.toNat < 2 ^ 64 then some (a + b) else none

/-- A word shifted by less than it has bits. -/
def shiftLeft? (a n : UInt64) : Option UInt64 := if n < 64 then some (a <<< n) else none

structure Cursor where
  message : Bytes
  position : UInt64
  deriving DecidableEq

namespace Cursor

def ofBytes (b : Bytes) : Cursor := ⟨b, 0⟩

/-- The cursor `n` bytes further on. -/
def move? (c : Cursor) (n : UInt64) : Option Cursor :=
  (add? c.position n).map fun p => { c with position := p }

/-- The bytes from here to a position that is neither before here nor behind the message. -/
def cut? (c : Cursor) (last : UInt64) : Option Bytes :=
  if c.position ≤ last ∧ last.toNat ≤ c.message.length then
    some ((c.message.take last.toNat).drop c.position.toNat)
  else none

/-- Adds groups of seven bits to a sum, one for each shift. -/
def groups? (start : UInt64) : List UInt64 → UInt64 → Cursor →
    Option (Except WireError UInt64 × Cursor)
  | [], _, c => some (.error (.varintOverflow start.toNat), c)
  | shift :: shifts, sum, c =>
    match c.message[c.position.toNat]? with
    | none => some (.error (.truncated c.position.toNat), c)
    | some b =>
      (c.move? 1).bind fun c =>
        (shiftLeft? (b &&& 0x7F).toUInt64 shift).bind fun group =>
          if b < 0x80 then some (.ok (sum ||| group), c)
          else groups? start shifts (sum ||| group) c

/-- The shifts of groups, of which the first is shifted by `shift`. -/
def shifts : (fuel shift : Nat) → List UInt64
  | 0, _ => []
  | fuel + 1, shift => shift.toUInt64 :: shifts fuel (shift + 7)

def varint? (c : Cursor) : Option (Except WireError UInt64 × Cursor) :=
  groups? c.position (shifts Reader.maxVarintSize 0) 0 c

/-- A length and as many bytes. The position behind them is looked at before it is used; that it is
a word is not taken for granted. -/
def bytes? (c : Cursor) : Option (Except WireError Bytes × Cursor) :=
  c.varint?.bind fun
    | (.error e, c) => some (.error e, c)
    | (.ok n, c) =>
      match (add? c.position n).filter fun last => last.toNat ≤ c.message.length with
      | none => some (.error (.truncated c.position.toNat), c)
      | some last => (c.cut? last).map fun b => (.ok b, { c with position := last })

/-- The position behind the value is computed before it is looked at. -/
def fixed? (c : Cursor) (width : UInt64) : Option (Except WireError Unit × Cursor) :=
  (c.move? width).map fun c' =>
    if c.message.length < c'.position.toNat then (.error (.truncated c.position.toNat), c)
    else (.ok (), c')

def take? (c : Cursor) : WireType → Option (Except WireError RecordValue × Cursor)
  | .varint => c.varint?.map (Prod.map (Except.map .varint) id)
  | .fixed64 => (c.fixed? 8).map (Prod.map (Except.map fun _ => .fixed) id)
  | .lengthDelimited => c.bytes?.map (Prod.map (Except.map .bytes) id)
  | .fixed32 => (c.fixed? 4).map (Prod.map (Except.map fun _ => .fixed) id)

def perform? (c : Cursor) (x : Read) : Option (Except WireError Outcome × Cursor) :=
  (c.take? x.wireType).map fun taken =>
    (taken.1.bind (x.outcome c.position.toNat), taken.2)

def performs? (c : Cursor) : List Read → Option (List (Except WireError Outcome) × Cursor)
  | [] => some ([], c)
  | x :: xs =>
    (c.perform? x).bind fun first =>
      (first.2.performs? xs).map fun rest => (first.1 :: rest.1, rest.2)

end Cursor

namespace Reader

/-- The cursor of a reader of a message. -/
def cursor (r : Reader) (b : Bytes) : Cursor := ⟨b, UInt64.ofNat r.offset⟩

variable {r r' : Reader} {b : Bytes}

@[simp] theorem message_cursor (r : Reader) (b : Bytes) : (r.cursor b).message = b := rfl

theorem toNat_position (h : r.Within b) (fits : b.length < 2 ^ 63) :
    (r.cursor b).position.toNat = r.offset := by
  have := h.inside
  rw [cursor, UInt64.toNat_ofNat', Nat.mod_eq_of_lt (by omega)]

theorem add?_position (h : r.Within b) (fits : b.length < 2 ^ 63) (n : UInt64) :
    add? (r.cursor b).position n =
      if r.offset + n.toNat < 2 ^ 64 then some (UInt64.ofNat (r.offset + n.toNat)) else none := by
  rw [add?, toNat_position h fits]
  split
  · rw [cursor, UInt64.ofNat_add, UInt64.ofNat_toNat]
  · rfl

theorem move?_cursor (h : r.Within b) (fits : b.length < 2 ^ 63) {n : UInt64}
    (small : n.toNat < 2 ^ 63) : (r.cursor b).move? n = some ((r.advance n.toNat).cursor b) := by
  have := h.inside
  rw [Cursor.move?, add?_position h fits, if_pos (by omega)]
  rfl

theorem getElem?_position (h : r.Within b) (fits : b.length < 2 ^ 63) :
    (r.cursor b).message[(r.cursor b).position.toNat]? = r.rest.head? := by
  rw [toNat_position h fits, h.rest, List.head?_drop]
  rfl

theorem Within.advance (h : r.Within b) {n : Nat} (within : n ≤ r.rest.length) :
    (r.advance n).Within b := h.of_passes (passes_advance within)

theorem advance_advance (r : Reader) (m n : Nat) :
    (r.advance m).advance n = r.advance (m + n) := by
  simp only [Reader.advance, List.drop_drop, Nat.add_assoc]

/-- The groups are added up to what they spell, and the cursor stops behind the last of them. -/
theorem groups?_cursor (h : r.Within b) (fits : b.length < 2 ^ 63) (start sum : UInt64)
    {fuel shift : Nat} (small : shift + 7 * fuel ≤ 70) :
    Cursor.groups? start (Cursor.shifts fuel shift) sum (r.cursor b) = some
      (match scanVarint fuel shift r.rest with
      | .complete v n => (.ok (sum ||| v), (r.advance n).cursor b)
      | .unfinished =>
        (.error (.truncated (r.offset + r.rest.length)), (r.advance r.rest.length).cursor b)
      | .tooLong => (.error (.varintOverflow start.toNat), (r.advance fuel).cursor b)) := by
  induction fuel generalizing r sum shift with
  | zero => rfl
  | succ fuel ih =>
    rw [Cursor.shifts, Cursor.groups?, getElem?_position h fits]
    cases rest : r.rest with
    | nil =>
      simp only [List.head?_nil, scanVarint, toNat_position h fits, List.length_nil]
      rfl
    | cons c cs =>
      have one : 1 ≤ r.rest.length := by simp [rest]
      have next : (r.advance 1).rest = cs := by simp [rest]
      have shifted : shift.toUInt64 < 64 := by
        have bits : (64 : UInt64).toNat = 64 := rfl
        rw [UInt64.lt_iff_toNat_lt, bits, Nat.toUInt64_eq, UInt64.toNat_ofNat']
        omega
      simp only [List.head?_cons, scanVarint, move?_cursor h fits (n := 1) (by decide),
        shiftLeft?, if_pos shifted, Option.bind_some]
      by_cases ends : c < 0x80
      · simp only [if_pos ends]
        rfl
      · have later := ih (h.advance one) (sum ||| (c &&& 0x7F).toUInt64 <<< shift.toUInt64)
          (show shift + 7 + 7 * fuel ≤ 70 by omega)
        rw [next] at later
        simp only [if_neg ends]
        refine later.trans (congrArg some ?_)
        cases scanVarint fuel (shift + 7) cs with
        | complete v n => simp only [UInt64.or_assoc, advance_advance, Nat.add_comm 1 n]
        | unfinished =>
          simp only [advance_advance, offset_advance, List.length_cons, Nat.add_assoc,
            Nat.add_comm 1]
        | tooLong => simp only [advance_advance, Nat.add_comm 1 fuel]

/-- A result and the cursor of the reader that is left behind. -/
def leaving {α : Type} (b : Bytes) (read : α × Reader) : α × Cursor := (read.1, read.2.cursor b)

theorem varint?_cursor (h : r.Within b) (fits : b.length < 2 ^ 63) :
    (r.cursor b).varint? = some (leaving b r.varint) := by
  rw [Cursor.varint?, groups?_cursor h fits _ _ (by decide), toNat_position h fits, varint]
  congr 1
  cases scanVarint maxVarintSize 0 r.rest with
  | complete v n => simp only [UInt64.zero_or, leaving]
  | unfinished => rfl
  | tooLong => rfl

/-- A length that is too great for the message may also be too great for a sum of positions. -/
theorem position_behind (h : r.Within b) (fits : b.length < 2 ^ 63) (n : UInt64) :
    ((add? (r.cursor b).position n).filter fun last => last.toNat ≤ (r.cursor b).message.length) =
      if n.toNat ≤ r.rest.length then some (UInt64.ofNat (r.offset + n.toNat)) else none := by
  have whole := h.length_rest
  rw [add?_position h fits]
  by_cases within : n.toNat ≤ r.rest.length
  · rw [if_pos (by omega), if_pos within, Option.filter_some_pos]
    simp only [message_cursor, decide_eq_true_eq, UInt64.toNat_ofNat']
    omega
  · rw [if_neg within]
    split
    · rename_i isWord
      apply Option.filter_some_neg
      rw [UInt64.toNat_ofNat', Nat.mod_eq_of_lt isWord, message_cursor, decide_eq_false_iff_not]
      omega
    · rfl

theorem cut?_cursor (h : r.Within b) (fits : b.length < 2 ^ 63) {n : Nat}
    (within : n ≤ r.rest.length) :
    (r.cursor b).cut? (UInt64.ofNat (r.offset + n)) = some (r.rest.take n) := by
  have whole := h.length_rest
  have last : (UInt64.ofNat (r.offset + n)).toNat = r.offset + n := by
    rw [UInt64.toNat_ofNat', Nat.mod_eq_of_lt (by omega)]
  have inOrder : (r.cursor b).position ≤ UInt64.ofNat (r.offset + n) ∧
      (UInt64.ofNat (r.offset + n)).toNat ≤ (r.cursor b).message.length := by
    rw [UInt64.le_iff_toNat_le, last, toNat_position h fits, message_cursor]
    exact ⟨Nat.le_add_right _ _, by omega⟩
  rw [Cursor.cut?, if_pos inOrder, last, toNat_position h fits, List.drop_take, h.rest,
    Nat.add_sub_cancel_left]
  rfl

theorem bytes?_cursor (h : r.Within b) (fits : b.length < 2 ^ 63) :
    (r.cursor b).bytes? = some (leaving b r.bytes) := by
  obtain ⟨code, passes⟩ := (moves_varint r).passes
  rw [Cursor.bytes?, varint?_cursor h fits, bytes]
  rcases size : r.varint with ⟨e | n, m⟩
  · rfl
  · have behind : m.Within b := by
      rw [size] at passes
      exact h.of_passes passes
    simp only [leaving, Option.bind_some, position_behind behind fits]
    by_cases within : n.toNat ≤ m.rest.length
    · simp only [if_pos within, cut?_cursor behind fits within, Option.map_some]
      rfl
    · simp only [if_neg within, toNat_position behind fits]

theorem fixed?_cursor (h : r.Within b) (fits : b.length < 2 ^ 63) {width : UInt64}
    (small : width.toNat < 2 ^ 63) :
    (r.cursor b).fixed? width = some (leaving b (r.fixed width.toNat)) := by
  have whole := h.length_rest
  have behind : ((r.advance width.toNat).cursor b).position.toNat = r.offset + width.toNat := by
    simp only [cursor, offset_advance, UInt64.toNat_ofNat']
    omega
  rw [Cursor.fixed?, move?_cursor h fits small, Option.map_some, behind, toNat_position h fits,
    fixed]
  by_cases within : width.toNat ≤ r.rest.length
  · rw [if_pos within, if_neg (by rw [message_cursor]; omega)]
    rfl
  · rw [if_neg within, if_pos (by rw [message_cursor]; omega)]
    rfl

theorem take?_cursor (h : r.Within b) (fits : b.length < 2 ^ 63) (t : WireType) :
    (r.cursor b).take? t = some (leaving b (r.take t)) := by
  cases t with
  | varint =>
    rw [Cursor.take?, varint?_cursor h fits]
    rfl
  | fixed64 =>
    rw [Cursor.take?, fixed?_cursor h fits (by decide)]
    rfl
  | lengthDelimited =>
    rw [Cursor.take?, bytes?_cursor h fits]
    rfl
  | fixed32 =>
    rw [Cursor.take?, fixed?_cursor h fits (by decide)]
    rfl

/-- A read of a cursor has a result, and it is that of the reader. -/
theorem perform?_cursor (h : r.Within b) (fits : b.length < 2 ^ 63) (x : Read) :
    (r.cursor b).perform? x = some (leaving b (r.perform x)) := by
  rw [Cursor.perform?, take?_cursor h fits, toNat_position h fits, perform_eq]
  rfl

theorem performs?_cursor (h : r.Within b) (fits : b.length < 2 ^ 63) (xs : List Read) :
    (r.cursor b).performs? xs = some (leaving b (r.performs xs)) := by
  induction xs generalizing r with
  | nil => rfl
  | cons x xs ih =>
    rw [Cursor.performs?, perform?_cursor h fits, Option.bind_some, leaving, ih (h.perform x)]
    rfl

/-- A read of a reader of the message `b` moves forward within the message. -/
structure Advances (b : Bytes) (r : Reader) (x : Read) : Prop where
  forward : r.offset ≤ (r.perform x).2.offset
  inside : (r.perform x).2.offset ≤ b.length
  rest : (r.perform x).2.rest = b.drop (r.perform x).2.offset
  progress : ∀ v, (r.perform x).1 = .ok v → r.offset < (r.perform x).2.offset

theorem advances (h : r.Within b) (x : Read) : Advances b r x where
  forward := by
    obtain ⟨code, passes⟩ := (moves_perform r x).passes
    rw [passes.offset]
    exact Nat.le_add_right _ _
  inside := (h.perform x).inside
  rest := (h.perform x).rest
  progress := (moves_perform r x).forward

end Reader

/-- Whatever is read of a message, in any order and also after reads that failed: the position never
goes back nor beyond the message, and every read that succeeds moves it on. Memory holds no message
of `2 ^ 63` bytes; on any shorter one, done in words of 64 bits, every sum of positions is a word
and every cut is within the message, whatever length a varint announces. So the loops that decode
manifests and their parts end before they have read more keys than there are bytes. -/
theorem reads_stay_within (b : Bytes) :
    (∀ (xs : List Read) (x : Read), Reader.Advances b ((Reader.ofBytes b).performs xs).2 x) ∧
    (b.length < 2 ^ 63 → ∀ xs : List Read,
      (Cursor.ofBytes b).performs? xs =
        some (((Reader.ofBytes b).performs xs).1, ((Reader.ofBytes b).performs xs).2.cursor b)) ∧
    (Reader.ofBytes b).foldRecordsWithin DependencyManifest.step b.length .start =
      some (DependencyManifest.decode b) ∧
    (Reader.ofBytes b).foldRecordsWithin Dependency.step b.length .start =
      some (Dependency.decode b) ∧
    (Reader.ofBytes b).foldRecordsWithin PackageManifest.step b.length [] =
      some (PackageManifest.decode b) ∧
    (Reader.ofBytes b).foldRecordsWithin SourcePackage.step b.length .start =
      some (SourcePackage.decode b) ∧
    (Reader.ofBytes b).foldRecordsWithin ArtifactLocation.wireStep b.length (.generated "" "") =
      some (ArtifactLocation.ofWire b) := by
  have start := Reader.within_ofBytes b
  refine ⟨?_, ?_, foldMessage_within b _, foldMessage_within b _, foldMessage_within b _,
    foldMessage_within b _, foldMessage_within b _⟩
  · intro xs x
    exact Reader.advances (start.performs xs) x
  · intro fits xs
    exact Reader.performs?_cursor start fits xs

/-- Nine groups that go on and one that ends: the length `2 ^ 64 - 1`. -/
def boundlessMessage : Bytes := [0xFF, 0xFF, 0xFF, 0xFF, 0xFF, 0xFF, 0xFF, 0xFF, 0xFF, 0x01, 0x08]

theorem boundless_length_truncated :
    boundlessMessage.length < 2 ^ 63 ∧
      (Cursor.ofBytes boundlessMessage).performs? [.content .bytes, .skip .fixed64, .key] =
        some ([.error (.truncated 10), .error (.truncated 10), .ok (.key 1 .varint)],
          ⟨boundlessMessage, 11⟩) := by
  have fits : boundlessMessage.length < 2 ^ 63 := by decide
  obtain ⟨-, words, -⟩ := reads_stay_within boundlessMessage
  exact ⟨fits, (words fits _).trans rfl⟩

end WorkspaceSync.Wire
