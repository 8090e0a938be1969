import Mathlib.Data.List.Basic
import WorkspaceSync.ContentHash

/-!
# Hashes of what a reader delivers

A hasher that is fed chunk by chunk holds, after every chunk, what it would hold had all bytes
come at once: the stripes that are taken in do not depend on where the chunks end. So the hash of
what a reader delivers is the hash of the whole byte string, however the reader cuts it and however
often it is interrupted.
-/

namespace WorkspaceSync

namespace Bytes

variable {n : Nat} {a : Bytes}

theorem takeLast_of_length_le (h : a.length ≤ n) : takeLast n a = a := by
  rw [takeLast, Nat.sub_eq_zero_of_le h, List.drop_zero]

/-- The last bytes of a string are found among the last bytes of its beginning and what follows. -/
theorem takeLast_takeLast_append (n : Nat) (a b : Bytes) :
    takeLast n (takeLast n a ++ b) = takeLast n (a ++ b) := by
  by_cases short : a.length ≤ n
  · rw [takeLast_of_length_le short]
  · have cut : a.length - n ≤ (a ++ b).length - n := by
      simp only [List.length_append]
      omega
    have kept : takeLast n a ++ b = (a ++ b).drop (a.length - n) := by
      rw [takeLast, List.drop_append_of_le_length (Nat.sub_le _ _)]
    rw [kept, takeLast, takeLast, List.drop_drop, List.length_drop]
    congr 1
    simp only [List.length_append] at cut ⊢
    omega

end Bytes

namespace ContentHash

/-! ## Stripes -/

namespace Lanes

theorem takeAll_of_short {s : Lanes} {b : Bytes} (h : b.drop 64 = []) : s.takeAll b = (s, b) := by
  rw [takeAll, dif_pos h]

theorem takeAll_of_long {s : Lanes} {b : Bytes} (h : b.drop 64 ≠ []) :
    s.takeAll b = (s.take (b.take 64)).takeAll (b.drop 64) := by
  rw [takeAll, dif_neg h]

/-- What is left of the beginning of a string goes in front of the rest of it. -/
theorem takeAll_append (s : Lanes) (a b : Bytes) :
    (s.takeAll a).1.takeAll ((s.takeAll a).2 ++ b) = s.takeAll (a ++ b) := by
  induction s, a using Lanes.takeAll.induct with
  | case1 s a short => rw [takeAll_of_short short]
  | case2 s a long _ ih =>
    have full : 64 ≤ a.length := by
      have := List.length_pos_iff.2 long
      simp only [List.length_drop] at this
      omega
    have rest : (a ++ b).drop 64 = a.drop 64 ++ b := List.drop_append_of_le_length full
    have first : (a ++ b).take 64 = a.take 64 := List.take_append_of_le_length full
    have long' : (a ++ b).drop 64 ≠ [] := by
      rw [rest]
      exact List.append_ne_nil_of_left_ne_nil long b
    rw [takeAll_of_long long, takeAll_of_long long', rest, first]
    exact ih

end Lanes

/-! ## Chunks -/

namespace Hasher

/-- A hasher that has been fed a byte string, in whatever chunks. -/
structure Fed (h : Hasher) (b : Bytes) : Prop where
  length : h.length = b.length
  head : h.head = b.take shortLimit
  lanes : (h.lanes, h.pending) = Lanes.start.takeAll b
  last : h.last = Bytes.takeLast 64 b

theorem fed_start : start.Fed [] where
  length := rfl
  head := rfl
  lanes := (Lanes.takeAll_of_short rfl).symm
  last := rfl

theorem Fed.update {h : Hasher} {b : Bytes} (fed : h.Fed b) (chunk : Bytes) :
    (h.update chunk).Fed (b ++ chunk) := by
  obtain ⟨lanes, pending⟩ := Prod.mk.inj fed.lanes
  constructor
  · simp only [Hasher.update, fed.length, List.length_append]
  · have both : (b ++ chunk).take shortLimit = (b.take shortLimit ++ chunk).take shortLimit := by
      rw [List.take_append, List.take_append, List.take_take, Nat.min_self, List.length_take]
      by_cases short : b.length ≤ shortLimit
      · rw [Nat.min_eq_right short]
      · rw [Nat.min_eq_left (by omega), Nat.sub_self, Nat.sub_eq_zero_of_le (by omega)]
    simp only [Hasher.update, fed.head, both]
  · simp only [Hasher.update, lanes, pending, Lanes.takeAll_append]
  · simp only [Hasher.update, fed.last, Bytes.takeLast_takeLast_append]

/-- The digest depends on the bytes alone. -/
theorem Fed.digest_eq {h : Hasher} {b : Bytes} (fed : h.Fed b) : h.digest = ofBytes b := by
  obtain ⟨lanes, -⟩ := Prod.mk.inj fed.lanes
  rw [digest, ofBytes, fed.length]
  split_ifs with short
  · rw [fed.head, List.take_of_length_le short]
  · rw [lanes, fed.last]

end Hasher

/-! ## Readers -/

/-- The most bytes that one attempt to read on can deliver. -/
def chunkLimit : Nat := 64 * 1024

/-- A reader delivers a byte string: in chunks that are neither empty nor too long, with any number
of interruptions around them. -/
inductive Delivers {ε : Type} : List (ReadEvent ε) → Bytes → Prop where
  | nil : Delivers [] []
  | chunk {c : Bytes} {events : List (ReadEvent ε)} {b : Bytes} (some : c ≠ [])
      (fits : c.length ≤ chunkLimit) (rest : Delivers events b) :
      Delivers (.chunk c :: events) (c ++ b)
  | interrupted {events : List (ReadEvent ε)} {b : Bytes} (rest : Delivers events b) :
      Delivers (.interrupted :: events) b

variable {ε : Type} {events : List (ReadEvent ε)} {b : Bytes}

/-- A hasher that meets what a reader delivers is fed that too, whatever comes next. -/
theorem go_of_delivers (delivers : Delivers events b) {h : Hasher} {a : Bytes} (fed : h.Fed a)
    (later : List (ReadEvent ε)) :
    ∃ h' : Hasher, h'.Fed (a ++ b) ∧ ofReader.go h (events ++ later) = ofReader.go h' later := by
  induction delivers generalizing h a with
  | nil => exact ⟨h, by rwa [List.append_nil], rfl⟩
  | chunk some _ _ ih =>
    obtain ⟨h', fed', went⟩ := ih (fed.update _)
    refine ⟨h', by rwa [← List.append_assoc], ?_⟩
    rw [← went]
    exact if_neg some
  | interrupted _ ih => exact ih fed

/-- The hash of what a reader delivers is that of the whole byte string, and an empty chunk ends the
string; a failure after it, be there more to read or not, is the outcome itself. -/
theorem ofReader_of_delivers (delivers : Delivers events b) :
    ofReader events = .ok (ofBytes b) ∧
      (∀ later : List (ReadEvent ε), ofReader (events ++ .chunk [] :: later) = .ok (ofBytes b)) ∧
      ∀ (e : ε) (later : List (ReadEvent ε)),
        ofReader (events ++ .failed e :: later) = .error e := by
  refine ⟨?_, ?_, ?_⟩
  · obtain ⟨h, fed, went⟩ := go_of_delivers delivers Hasher.fed_start []
    rw [List.append_nil] at went
    rw [ofReader, went, ofReader.go, fed.digest_eq, List.nil_append]
  · intro later
    obtain ⟨h, fed, went⟩ := go_of_delivers delivers Hasher.fed_start (.chunk [] :: later)
    rw [ofReader, went, ofReader.go, if_pos rfl, fed.digest_eq, List.nil_append]
  · intro e later
    obtain ⟨h, -, went⟩ := go_of_delivers delivers Hasher.fed_start (.failed e :: later)
    rw [ofReader, went, ofReader.go]

/-- Chunks that end within a stripe and at the end of one, and more bytes than a closed formula can
hash. -/
def interruptedReading : List (ReadEvent String) :=
  [.chunk (.replicate 100 7), .interrupted, .interrupted, .chunk (.replicate 92 7),
    .chunk (.replicate 64 7), .interrupted, .chunk (.replicate 44 7), .interrupted]

theorem ofReader_of_interruptedReading :
    Delivers interruptedReading (.replicate 300 7) ∧
      ofReader interruptedReading = .ok (ofBytes (.replicate 300 7)) ∧
      ofReader (interruptedReading ++ [.chunk [], .chunk [7]]) =
        .ok (ofBytes (.replicate 300 7)) ∧
      ofReader (interruptedReading ++ [.failed "disk", .chunk [7]]) = .error "disk" := by
  have ends : Delivers ([.interrupted] : List (ReadEvent String)) [] := .interrupted .nil
  have delivers : Delivers interruptedReading (.replicate 300 7) :=
    .chunk (c := .replicate 100 7) (by decide) (by decide) <| .interrupted <| .interrupted <|
      .chunk (c := .replicate 92 7) (by decide) (by decide) <|
      .chunk (c := .replicate 64 7) (by decide) (by decide) <| .interrupted <|
      .chunk (c := .replicate 44 7) (by decide) (by decide) ends
  obtain ⟨hashed, ended, failed⟩ := ofReader_of_delivers delivers
  exact ⟨delivers, hashed, ended [.chunk [7]], failed "disk" [.chunk [7]]⟩

end ContentHash

end WorkspaceSync
