import WorkspaceSync.Proofs.Label
import WorkspaceSync.Proofs.LanguageLevel
import WorkspaceSync.Proofs.StateFile.Codec
import WorkspaceSync.StateFile.Format

/-!
# State files hold what was written

Every part of a state is written so that it is restored and that no cut through it goes unnoticed; so
is the state, and the header before it. The one exception is a level that is no feature release: its
text is not read, and neither is a state with such a level. The header is found by its length and the
payload by its hash, so a file of the right kind is decoded to the state that was written or not at
all.
-/

namespace WorkspaceSync

namespace Bytes

open Codec

private theorem littleEndian_eq_map (width n : Nat) :
    littleEndian width n = (List.range width).map fun i => UInt8.ofNat (n / 256 ^ i) := by
  induction width generalizing n with
  | zero => rfl
  | succ width ih =>
    have shift : ∀ i, n / 256 / 256 ^ i = n / 256 ^ (i + 1) := by
      intro i
      rw [Nat.div_div_eq_div_mul, Nat.pow_succ']
    rw [littleEndian, ih, List.range_succ_eq_map, List.map_cons, List.map_map, Nat.pow_zero,
      Nat.div_one]
    simp only [shift, Function.comp_def, Nat.succ_eq_add_one]

theorem ofWord_eq (w : UInt64) : ofWord w = littleEndian 8 w.toNat := by
  rw [littleEndian_eq_map]
  refine List.map_congr_left fun i hi => UInt8.toNat_inj.1 ?_
  have shift : (8 * i).toUInt64.toNat % 64 = 8 * i := by
    have := List.mem_range.1 hi
    rw [Nat.toUInt64_eq, UInt64.toNat_ofNat']
    omega
  rw [UInt64.toNat_toUInt8, UInt64.toNat_shiftRight, shift, Nat.shiftRight_eq_div_pow,
    Nat.pow_mul, UInt8.toNat_ofNat']

/-- Shifting bytes into a word is multiplying, as long as they fit. -/
theorem toNat_word {n : Nat} (fits : n ≤ 8) (b : Bytes) :
    (word n b).toNat = (b.take n).foldr (fun x n => x.toNat + 256 * n) 0 ∧
      (word n b).toNat < 256 ^ n := by
  induction n generalizing b with
  | zero => exact ⟨rfl, Nat.one_pos⟩
  | succ n ih =>
    cases b with
    | nil => exact ⟨rfl, Nat.pow_pos (by decide)⟩
    | cons x b =>
      obtain ⟨same, small⟩ := ih (by omega) b
      have room : (word n b).toNat < 256 ^ 7 :=
        Nat.lt_of_lt_of_le small (Nat.pow_le_pow_right (by decide) (by omega))
      have step : (word (n + 1) (x :: b)).toNat = x.toNat + 256 * (word n b).toNat := by
        have unfolded : word (n + 1) (x :: b) = word n b <<< 8 ||| x.toUInt64 := rfl
        have shift : (8 : UInt64).toNat % 64 = 8 := rfl
        rw [unfolded, UInt64.toNat_or, UInt64.toNat_shiftLeft, shift,
          Nat.mod_eq_of_lt (by rw [Nat.shiftLeft_eq]; omega), UInt8.toNat_toUInt64,
          ← Nat.shiftLeft_add_eq_or_of_lt x.toNat_lt, Nat.shiftLeft_eq]
        omega
      have byte := x.toNat_lt
      refine ⟨?_, ?_⟩
      · rw [step, same, List.take_succ_cons, List.foldr_cons]
      · rw [step, Nat.pow_succ']
        omega

theorem word_ofWord (w : UInt64) (b : Bytes) : word 8 (ofWord w ++ b) = w := by
  have length : (ofWord w).length = 8 := by rw [ofWord_eq, length_littleEndian]
  apply UInt64.toNat_inj.1
  rw [(toNat_word (Nat.le_refl 8) _).1, List.take_left' length, ofWord_eq, foldr_littleEndian]
  exact Nat.mod_eq_of_lt w.toNat_lt

end Bytes

namespace ContentHash

@[simp] theorem length_toBytes (h : ContentHash) : h.toBytes.length = 16 := by
  rw [toBytes, List.length_append, Bytes.ofWord_eq, Bytes.ofWord_eq]
  simp

theorem ofWords_toBytes (h : ContentHash) : ofWords h.toBytes = h := by
  have length : (Bytes.ofWord h.low).length = 8 := by
    rw [Bytes.ofWord_eq, Codec.length_littleEndian]
  have high : Bytes.word 8 (h.toBytes.drop 8) = h.high := by
    rw [toBytes, List.drop_left' length, ← List.append_nil (Bytes.ofWord h.high),
      Bytes.word_ofWord]
  rw [ofWords, high, toBytes, Bytes.word_ofWord]

end ContentHash

namespace Codec

theorem lawful_filePath : filePath.Lawful := lawful_text.via fun _ => rfl

theorem lawful_label : label.Lawful :=
  lawful_text.via fun l => congrArg Except.toOption l.parse_text

theorem selective_languageLevel : languageLevel.Selective LanguageLevel.IsFeatureRelease :=
  lawful_text.selectiveVia (fun _ => LanguageLevel.parse?_text)
    (fun _ => LanguageLevel.parse?_text_eq_none)
    fun _ _ read => (LanguageLevel.parse?_eq_some_iff.1 read).1

theorem lawful_libraryKey : libraryKey.Lawful := lawful_text.via fun _ => rfl

theorem lawful_contentHash : contentHash.Lawful where
  incremental := (incremental_raw 16).via
  restores h := (restores_raw h.length_toBytes (by decide)).via (congrArg some h.ofWords_toBytes)

theorem lawful_fileSignature : fileSignature.Lawful where
  incremental b a rest h q := by
    unfold fileSignature at h ⊢
    dsimp only at h ⊢
    split at h
    · rename_i hb
      obtain ⟨x, hx, same⟩ := Option.map_eq_some_iff.1 h
      obtain ⟨rfl, rfl⟩ := Prod.mk.inj same
      rw [decodeNatural_append hb q]
      exact Option.map_eq_some_iff.2
        ⟨_, (lawful_word64.pair lawful_word128).incremental hx q, rfl⟩
    · rename_i hb
      obtain ⟨x, hx, same⟩ := Option.map_eq_some_iff.1 h
      obtain ⟨rfl, rfl⟩ := Prod.mk.inj same
      rw [decodeNatural_append hb q]
      exact Option.map_eq_some_iff.2 ⟨_, lawful_contentHash.incremental hx q, rfl⟩
    · cases h
  restores s := by
    have kind : ∀ n < 2, ∀ b, decodeNatural 4 (encodeNatural n ++ b) = some (n, b) := by
      intro n small b
      exact decodeNatural_append (decodeNatural_encodeNatural (by decide) (by omega)) b
    cases s with
    | metadata size modified =>
      refine ⟨Nat.succ_pos _, fun fits => ?_⟩
      have inner := ((lawful_word64.pair lawful_word128).restores (size, modified)).decode_encode
        (Nat.lt_of_succ_lt fits)
      simp only [fileSignature, kind 0 (by decide), inner, Option.map_some]
    | content hash =>
      refine ⟨Nat.succ_pos _, fun fits => ?_⟩
      have inner := (lawful_contentHash.restores hash).decode_encode (Nat.lt_of_succ_lt fits)
      simp only [fileSignature, kind 1 (by decide), inner, Option.map_some]

theorem lawful_manifestIndex : manifestIndex.Lawful :=
  ((lawful_filePath.table lawful_fileSignature).pair
    ((lawful_filePath.table lawful_label).pair (lawful_label.table lawful_text.list))).via
    fun _ => rfl

theorem lawful_artifactLocation : artifactLocation.Lawful :=
  (lawful_text.pair (lawful_text.pair lawful_flag)).via fun _ => rfl

theorem lawful_libraryArtifact : libraryArtifact.Lawful :=
  (lawful_artifactLocation.pair
    (lawful_artifactLocation.optional.pair lawful_artifactLocation.optional)).via fun _ => rfl

theorem lawful_library : library.Lawful :=
  (lawful_libraryKey.pair lawful_libraryArtifact).via fun _ => rfl

theorem lawful_sourceFolder : sourceFolder.Lawful :=
  (lawful_filePath.pair (lawful_text.pair lawful_flag)).via fun _ => rfl

theorem lawful_contentEntry : contentEntry.Lawful :=
  (lawful_filePath.pair (lawful_sourceFolder.list.pair lawful_filePath.list)).via fun _ => rfl

theorem selective_importResult : importResult.Selective fun r =>
    ∀ l ∈ r.sourceVersion, l.IsFeatureRelease :=
  (lawful_contentEntry.list.pairSelective ((lawful_libraryKey.table lawful_library).pairSelective
    (lawful_filePath.set.pairSelective
      (lawful_filePath.set.pairSelective selective_languageLevel.optional)))).via (fun _ => rfl)
    fun _ _ same => Option.some.inj same ▸ rfl

theorem selective_javaModel : javaModel.Selective fun m =>
    ∀ l ∈ m.imported.sourceVersion, l.IsFeatureRelease :=
  (selective_importResult.pairRight (lawful_text.list.pair
    (lawful_flag.pair (lawful_libraryKey.table lawful_library)))).via (fun _ => rfl)
    fun _ _ same => Option.some.inj same ▸ rfl

end Codec

/-- The level in a state, if there is one, is a feature release. -/
def SyncState.Restorable (s : SyncState) : Prop :=
  ∀ m ∈ s.java, ∀ l ∈ m.imported.sourceVersion, l.IsFeatureRelease

theorem Codec.selective_syncState : syncState.Selective SyncState.Restorable :=
  (lawful_manifestIndex.optional.pairSelective selective_javaModel.optional).via (fun _ => rfl)
    fun _ _ same => Option.some.inj same ▸ rfl

namespace StateHeader

theorem restores_codec {h : StateHeader} (magic : h.magic.length = 4) : codec.Restores h :=
  ((Codec.restores_raw magic (by decide)).pair (Codec.incremental_raw 4)
    ((Codec.lawful_word32.pair (Codec.lawful_text.pair Codec.lawful_contentHash)).restores
      (h.schemaVersion, h.toolVersion, h.checksum))).via rfl

/-- The first two fields stand at fixed places. -/
theorem fields_of_decode {b rest : Bytes} {h : StateHeader}
    (read : codec.decode b = some (h, rest)) :
    4 ≤ b.length ∧ b.take 4 = h.magic ∧
      ∃ after, Codec.word32.decode (b.drop 4) = some (h.schemaVersion, after) := by
  obtain ⟨fields, parts, same⟩ := Codec.decode_via_eq_some_iff.1 read
  obtain rfl := Option.some.inj same
  obtain ⟨between, magic, others⟩ := Codec.decode_pair_eq_some_iff.1 parts
  obtain ⟨after, version, -⟩ := Codec.decode_pair_eq_some_iff.1 others
  obtain ⟨length, rfl⟩ := Codec.decode_raw_eq_some_iff.1 magic
  refine ⟨?_, List.take_left' length, after, ?_⟩
  · rw [List.length_append]
    omega
  · rw [List.drop_left' length]
    exact version

end StateHeader

namespace StateFile

variable {toolVersion : String} {s : SyncState} {payload : Bytes}

/-- What stands before a payload. -/
def front (toolVersion : String) (payload : Bytes) : Bytes :=
  Codec.littleEndian 4 (StateHeader.codec.encode (.ofPayload toolVersion payload)).length ++
    StateHeader.codec.encode (.ofPayload toolVersion payload)

theorem encode_eq (toolVersion : String) (s : SyncState) : encode toolVersion s =
    front toolVersion (Codec.syncState.encode s) ++ Codec.syncState.encode s := rfl

/-- The length of the header fits in the four bytes before it, and lengths in the file are words. -/
structure Fits (toolVersion : String) (s : SyncState) : Prop where
  header : (StateHeader.codec.encode
    (.ofPayload toolVersion (Codec.syncState.encode s))).length < 2 ^ 32
  payload : (Codec.syncState.encode s).length < 2 ^ 64

/-- Only the version of the program makes headers longer or shorter. -/
theorem fits_of_short (short : (Bytes.ofText toolVersion).length + 64 < 2 ^ 32)
    (payload : (Codec.syncState.encode s).length < 2 ^ 64) : Fits toolVersion s := by
  refine ⟨?_, payload⟩
  have length := Codec.length_encodeNatural_le (Bytes.ofText toolVersion).length
  have version : (Codec.word32.encode StateHeader.currentSchema).length = 1 := rfl
  have checksum := (ContentHash.ofBytes (Codec.syncState.encode s)).length_toBytes
  have whole : (StateHeader.codec.encode
      (.ofPayload toolVersion (Codec.syncState.encode s))).length =
      4 + (1 + ((Codec.encodeNatural (Bytes.ofText toolVersion).length).length +
        (Bytes.ofText toolVersion).length + 16)) := by
    rw [← version, ← checksum, ← List.length_append]
    change (StateHeader.stateMagic ++ (Codec.word32.encode StateHeader.currentSchema ++
      (Codec.text.encode toolVersion ++ Codec.contentHash.encode _))).length = _
    rw [List.length_append, List.length_append, List.length_append]
    rfl
  omega

/-- A header and its payload are what stands behind the first four bytes. -/
theorem header_of_split {b : Bytes} {h : StateHeader} (parts : split b = some (h, payload)) :
    ∃ header rest, b.drop 4 = header ++ payload ∧
      StateHeader.codec.decode header = some (h, rest) := by
  unfold split Codec.readLittleEndian at parts
  split at parts
  · cases parts
  · rename_i n body length
    split at length
    · cases length
    · obtain ⟨-, rfl⟩ := Prod.mk.inj (Option.some.inj length)
      split at parts
      · cases parts
      · obtain ⟨r, read, same⟩ := Option.map_eq_some_iff.1 parts
        obtain ⟨rfl, rfl⟩ := Prod.mk.inj same
        exact ⟨(b.drop 4).take n, r.2, (List.take_append_drop n _).symm, read⟩

private theorem four_bytes : 2 ^ 32 = 256 ^ 4 := by decide

theorem split_front_append
    (fits : (StateHeader.codec.encode (.ofPayload toolVersion payload)).length < 2 ^ 32)
    (b : Bytes) :
    split (front toolVersion payload ++ b) = some (.ofPayload toolVersion payload, b) := by
  have length := Codec.readLittleEndian_littleEndian 4 (Nat.lt_of_lt_of_eq fits four_bytes)
  have header := (StateHeader.restores_codec (h := .ofPayload toolVersion payload) rfl).decode_encode
    (Nat.lt_trans fits (by decide))
  rw [split, front, List.append_assoc, Codec.readLittleEndian_append length]
  dsimp only
  rw [if_neg (by simp), List.nil_append, List.take_left, List.drop_left, header]
  rfl

theorem decode_front_append
    (fits : (StateHeader.codec.encode (.ofPayload toolVersion payload)).length < 2 ^ 32)
    (b : Bytes) :
    decode (front toolVersion payload ++ b) =
      if ContentHash.ofBytes b = ContentHash.ofBytes payload then
        (Codec.syncState.decode b).map (·.1)
      else none := by
  have announced : (StateHeader.ofPayload toolVersion payload).announces b = true ↔
      ContentHash.ofBytes b = ContentHash.ofBytes payload := by
    rw [StateHeader.announces, Bool.and_eq_true, decide_eq_true_eq]
    exact and_iff_right rfl
  rw [decode, split_front_append fits]
  exact if_congr announced rfl rfl

/-- A file holds the state that was written. -/
theorem decode_encode (fits : Fits toolVersion s) (restorable : s.Restorable) :
    decode (encode toolVersion s) = some s := by
  rw [encode_eq, decode_front_append fits.header, if_pos rfl,
    (Codec.selective_syncState.restores s restorable).decode_encode fits.payload]
  rfl

/-- The file is as its header says, and yet there is no state in it. -/
theorem decode_encode_eq_none (fits : Fits toolVersion s) (lost : ¬ s.Restorable) :
    decode (encode toolVersion s) = none := by
  have refused := Codec.selective_syncState.refuses s lost fits.payload []
  rw [List.append_nil] at refused
  rw [encode_eq, decode_front_append fits.header, if_pos rfl, refused]
  rfl

/-- What is cut off within the front is no file. -/
theorem split_of_short
    (fits : (StateHeader.codec.encode (.ofPayload toolVersion payload)).length < 2 ^ 32)
    {b : Bytes} (part : b <+: front toolVersion payload)
    (short : b.length < (front toolVersion payload).length) : split b = none := by
  have length := Codec.readLittleEndian_littleEndian 4 (Nat.lt_of_lt_of_eq fits four_bytes)
  rw [front, List.length_append, Codec.length_littleEndian] at short
  by_cases four : b.length < 4
  · rw [split, Codec.readLittleEndian, if_pos four]
  · have start : Codec.littleEndian 4 (StateHeader.codec.encode
        (.ofPayload toolVersion payload)).length <+: b :=
      List.prefix_of_prefix_length_le (List.prefix_append _ _) part
        (by rw [Codec.length_littleEndian]; omega)
    obtain ⟨rest, rfl⟩ := start
    rw [List.length_append, Codec.length_littleEndian] at short
    rw [split, Codec.readLittleEndian_append length]
    dsimp only
    rw [List.nil_append, if_pos (by omega)]

/-- A file that is cut off anywhere holds no state, not even a part of one. -/
theorem decode_part (fits : Fits toolVersion s) {b : Bytes}
    (part : b <+: encode toolVersion s) (strict : b ≠ encode toolVersion s) : decode b = none := by
  rw [encode_eq] at part strict
  by_cases short : b.length < (front toolVersion (Codec.syncState.encode s)).length
  · have start : b <+: front toolVersion (Codec.syncState.encode s) :=
      List.prefix_of_prefix_length_le part (List.prefix_append _ _) (Nat.le_of_lt short)
    rw [decode, split_of_short fits.header start short]
  · have start : front toolVersion (Codec.syncState.encode s) <+: b :=
      List.prefix_of_prefix_length_le (List.prefix_append _ _) part (Nat.le_of_not_lt short)
    obtain ⟨rest, rfl⟩ := start
    have inner : Codec.syncState.decode rest = none :=
      Codec.selective_syncState.decode_part fits.payload
        ((List.prefix_append_right_inj _).1 part) fun same => strict (by rw [same])
    rw [decode_front_append fits.header, inner]
    exact ite_self none

/-- Behind the header of a file only what has the hash of its payload is read. -/
theorem decode_other_payload (fits : Fits toolVersion s) {b : Bytes}
    (other : ContentHash.ofBytes b ≠ ContentHash.ofBytes (Codec.syncState.encode s)) :
    decode (front toolVersion (Codec.syncState.encode s) ++ b) = none := by
  rw [decode_front_append fits.header, if_neg other]

/-- A file that holds a state begins as one. -/
theorem fields_of_decode {b : Bytes} (holds : decode b = some s) :
    (b.drop 4).take 4 = StateHeader.stateMagic ∧
      ∃ rest, Codec.word32.decode (b.drop 8) = some (StateHeader.currentSchema, rest) := by
  unfold decode at holds
  split at holds
  · cases holds
  · rename_i h payload parts
    split at holds
    · rename_i announced
      simp only [StateHeader.announces, Bool.and_eq_true, decide_eq_true_eq] at announced
      obtain ⟨⟨magic, version⟩, -⟩ := announced
      obtain ⟨header, rest, whole, read⟩ := header_of_split parts
      obtain ⟨length, magic', after, version'⟩ := StateHeader.fields_of_decode read
      have eight : b.drop 8 = header.drop 4 ++ payload := by
        rw [← List.drop_append_of_le_length length, ← whole, List.drop_drop]
      refine ⟨?_, after ++ payload, ?_⟩
      · rw [whole, List.take_append_of_le_length length, magic', magic]
      · rw [eight, ← version]
        exact Codec.lawful_word32.incremental version' payload
    · cases holds

/-- Any file that holds a state holds one that can be had back. -/
theorem restorable_of_decode {b : Bytes} (holds : decode b = some s) : s.Restorable := by
  unfold decode at holds
  split at holds
  · cases holds
  · split at holds
    · obtain ⟨⟨state, rest⟩, read, rfl⟩ := Option.map_eq_some_iff.1 holds
      exact Codec.selective_syncState.yields _ _ rest read
    · cases holds

end StateFile

end WorkspaceSync
