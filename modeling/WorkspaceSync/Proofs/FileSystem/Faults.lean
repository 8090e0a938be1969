import Mathlib.Algebra.Group.Nat.Defs
import WorkspaceSync.CommandLine.Console
import WorkspaceSync.FileSystem.Access
import WorkspaceSync.Proofs.FileSystem.Disk

/-!
# Disks that fail

Any operation on files can fail for reasons that no path shows: a full disk, a missing permission, a
device that does not answer. Then a file is not read, not renamed and not removed; but a file may have
been written in part, and of several directories some may have been made. Which operations fail is a
schedule that a program cannot see.
-/

namespace WorkspaceSync

open CommandLine

/-- How one operation fails. -/
structure Fault where
  /-- The words of the platform. -/
  reason : String
  /-- What a look at many files takes for them. -/
  view : FileView
  /-- How many of the directories that lead to a new one are left to be made, and it itself. -/
  missing : Nat
  /-- What a file has that was opened and not written to its end. -/
  left : Option Bytes

/-- A disk with the failures of the operations to come, in their order. -/
structure FaultyDisk where
  disk : Disk
  faults : List (Option Fault)

namespace FaultyDisk

/-- No file is longer, in bytes. -/
def maxFileSize : Nat := 2 ^ 63 - 1

def tooLarge : IoError := .platform "File too large (os error 27)"

/-- Carries out an operation, unless it is its turn to fail. -/
def operate {α : Type} (works : StateM Disk α) (fails : Fault → StateM Disk α) :
    StateM FaultyDisk α := fun f =>
  match f.faults with
  | [] => ((works f.disk).1, ⟨(works f.disk).2, []⟩)
  | none :: faults => ((works f.disk).1, ⟨(works f.disk).2, faults⟩)
  | some x :: faults => ((fails x f.disk).1, ⟨(fails x f.disk).2, faults⟩)

/-- Makes the directories that lead to one, but not the nearest ones. -/
def createSome (p : FilePath) (missing : Nat) : StateM Disk (Except IoError Unit) :=
  match Disk.route p with
  | .error e => return .error e
  | .ok r => Disk.ensureAll ((Disk.ancestry r p).drop missing)

/-- Opens a file and writes something else than asked for, or does not open it. -/
def writeSome (p : FilePath) : Option Bytes → StateM Disk (Except IoError Unit)
  | none => return .ok ()
  | some left => Disk.attempt (·.write p left 0)

instance : FileAccess (StateM FaultyDisk) where
  read p := operate (fun d => (d.read p, d)) fun x => return .error (.platform x.reason)
  isFile p := operate (fun d => (d.isFile p, d)) fun _ => return false
  survey _ := operate (fun d => (d.view, d)) fun x => return x.view
  createDirectories p := operate (Disk.createDirectories p) fun x => do
    let _ ← createSome p x.missing
    return .error (.platform x.reason)
  write p b := operate
    (if b.length ≤ maxFileSize then Disk.attempt (·.write p b 0)
      else do
        let _ ← writeSome p (b.take maxFileSize)
        return .error tooLarge)
    fun x => do
      let _ ← writeSome p x.left
      return .error (.platform x.reason)
  rename p q := operate (Disk.attempt (·.rename p q)) fun x => return .error (.platform x.reason)
  removeFile p := operate (Disk.attempt (·.removeFile p)) fun x =>
    return .error (.platform x.reason)

end FaultyDisk

/-- Programs with a console on a disk that fails. -/
abbrev Session := StateT Transcript (StateM FaultyDisk)

namespace Session

variable {α β : Type} {x : Session α} {f : α → Session β} {Q R : Disk → α → Disk → Prop}

/-- What a program gives and makes of the disk, whatever fails. -/
def Ensures (x : Session α) (Q : Disk → α → Disk → Prop) : Prop :=
  ∀ t s, Q s.disk (x t s).1.1 (x t s).2.disk

theorem Ensures.mono (h : Ensures x Q) (weaker : ∀ {d a d'}, Q d a d' → R d a d') : Ensures x R :=
  fun t s => weaker (h t s)

theorem Ensures.pure {a : α} (h : ∀ d, Q d a d) : Ensures (Pure.pure a) Q :=
  fun _ s => h s.disk

theorem Ensures.bind {S : Disk → β → Disk → Prop} (hx : Ensures x Q)
    (hf : ∀ a, Ensures (f a) fun d' b d'' => ∀ d, Q d a d' → S d b d'') : Ensures (x >>= f) S :=
  fun t s => hf (x t s).1.1 (x t s).1.2 (x t s).2 s.disk (hx t s)

/-- The disk is as before. -/
def Quiet (x : Session α) : Prop := Ensures x fun d _ d' => d' = d

theorem Quiet.pure (a : α) : Quiet (Pure.pure a) := Ensures.pure fun _ => rfl

theorem Quiet.bind (hx : Quiet x) (hf : ∀ a, Quiet (f a)) : Quiet (x >>= f) :=
  Ensures.bind hx fun a => (hf a).mono fun same _ before => same.trans before

/-- After a program that leaves the disk alone, another one starts as if it were the first, with what
is known of the value of the first. -/
theorem Ensures.bind_of_same {P : α → Prop} {S : Disk → β → Disk → Prop}
    (hx : Ensures x fun d a d' => d' = d ∧ P a) (hf : ∀ a, P a → Ensures (f a) S) :
    Ensures (x >>= f) S := by
  intro t s
  obtain ⟨same, holds⟩ := hx t s
  have next := hf _ holds (x t s).1.2 (x t s).2
  rwa [same] at next

theorem Quiet.ensures_bind {S : Disk → β → Disk → Prop} (hx : Quiet x)
    (hf : ∀ a, Ensures (f a) S) : Ensures (x >>= f) S :=
  Ensures.bind_of_same (P := fun _ => True) (hx.mono fun same => ⟨same, trivial⟩)
    fun a _ => hf a

/-- What holds of an operation holds both when it works and when it fails. -/
theorem ensures_operate {works : StateM Disk α} {fails : Fault → StateM Disk α}
    (good : ∀ d, Q d (works d).1 (works d).2)
    (bad : ∀ x d, Q d (fails x d).1 (fails x d).2) :
    Ensures (liftM (FaultyDisk.operate works fails)) Q := by
  intro t s
  obtain ⟨d, faults⟩ := s
  rcases faults with _ | ⟨_ | x, faults⟩
  · exact good d
  · exact good d
  · exact bad x d

theorem quiet_read (p : FilePath) : Quiet (FileAccess.read p) :=
  ensures_operate (fun _ => rfl) fun _ _ => rfl

theorem quiet_isFile (p : FilePath) : Quiet (FileAccess.isFile p) :=
  ensures_operate (fun _ => rfl) fun _ _ => rfl

theorem quiet_survey (ps : List FilePath) : Quiet (FileAccess.survey ps) :=
  ensures_operate (fun _ => rfl) fun _ _ => rfl

theorem ensures_createDirectories (p : FilePath) :
    Ensures (FileAccess.createDirectories p) fun d _ d' => d.Grows d' := by
  refine ensures_operate (Disk.growing_createDirectories p) fun x d => ?_
  have some_made : Disk.Growing (FaultyDisk.createSome p x.missing) := by
    unfold FaultyDisk.createSome
    split
    · exact .pure _
    · exact Disk.growing_ensureAll _
  exact some_made.bind (fun _ => .pure _) d

/-- A write that succeeds is the write that was asked for, of a file that is not too long. Whether
it succeeds or not, it does nothing to files elsewhere. -/
theorem ensures_write (p : FilePath) (b : Bytes) :
    Ensures (FileAccess.write p b) fun d r d' =>
      (r = .ok () → d.write p b 0 = .ok d' ∧ b.length ≤ FaultyDisk.maxFileSize) ∧
        ∀ q, (∀ names, Disk.place p = .ok names → Disk.place q ≠ .ok names) →
          Disk.Spares q d d' := by
  have elsewhere : ∀ (b : Bytes) (d : Disk) (q : FilePath),
      (∀ names, Disk.place p = .ok names → Disk.place q ≠ .ok names) →
        Disk.Spares q d (Disk.attempt (·.write p b 0) d).2 := by
    intro b d q apart
    exact Disk.attempt_induction (Disk.Spares.refl q)
      (fun written => Disk.spares_of_write written apart) d
  have in_part : ∀ (left : Option Bytes) (d : Disk) (q : FilePath),
      (∀ names, Disk.place p = .ok names → Disk.place q ≠ .ok names) →
        Disk.Spares q d (FaultyDisk.writeSome p left d).2 := by
    intro left d q apart
    cases left with
    | none => exact .refl q d
    | some b => exact elsewhere b d q apart
  refine ensures_operate (fun d => ?_) fun x d => ⟨nofun, in_part x.left d⟩
  by_cases small : b.length ≤ FaultyDisk.maxFileSize
  · rw [if_pos small]
    refine ⟨fun done => ⟨?_, small⟩, elsewhere b d⟩
    rcases Disk.attempt_cases (·.write p b 0) d with ⟨-, written⟩ | ⟨e, failed, -⟩
    · exact written
    · rw [failed] at done
      cases done
  · rw [if_neg small]
    exact ⟨nofun, in_part (some (b.take FaultyDisk.maxFileSize)) d⟩

theorem ensures_rename (p q : FilePath) :
    Ensures (FileAccess.rename p q) fun d r d' =>
      match r with
      | .ok () => d.rename p q = .ok d'
      | .error _ => d' = d := by
  refine ensures_operate (fun d => ?_) fun x d => rfl
  rcases Disk.attempt_cases (·.rename p q) d with ⟨done, renamed⟩ | ⟨e, failed, -, same⟩
  · rw [done]
    exact renamed
  · rw [failed]
    exact same

/-- That a file is not there is never said of one that is. -/
theorem ensures_removeFile (p : FilePath) :
    Ensures (FileAccess.removeFile p) fun d r d' =>
      match r with
      | .ok () => d.removeFile p = .ok d'
      | .error e => d' = d ∧ (e = .notFound → d.removeFile p = .error e) := by
  refine ensures_operate (fun d => ?_) fun x d => ⟨rfl, nofun⟩
  rcases Disk.attempt_cases (·.removeFile p) d with ⟨done, removed⟩ | ⟨e, failed, refused, same⟩
  · rw [done]
    exact removed
  · rw [failed]
    exact ⟨same, fun _ => refused⟩

theorem quiet_out (s : String) : Quiet (Console.out s) := fun _ _ => rfl

theorem quiet_err (s : String) : Quiet (Console.err s) := fun _ _ => rfl

theorem quiet_clock : Quiet Console.clock := fun _ _ => rfl

end Session

end WorkspaceSync
