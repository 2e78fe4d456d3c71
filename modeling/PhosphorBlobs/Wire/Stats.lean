import PhosphorBlobs.Wire.Replies

/-! Stat replies read back. The length of the metadata is cut down to one byte in the reply
while the metadata is sent in full. -/
namespace PhosphorBlobs

variable {H : Type}

def ManagerEvent.statted : ManagerEvent H → Option BlobMeta
  | ⟨.stat _, info⟩ | ⟨.sessionStat _, info⟩ => info
  | _ => none

theorem statted_encoding {event : ManagerEvent H} {info : BlobMeta}
    (statted : event.statted = some info) : event.encoding = some (statBytes info) := by
  obtain ⟨call, answer⟩ := event
  cases call with
  | stat _ | sessionStat _ =>
    have answered : (answer : Option BlobMeta) = some info := statted
    subst answered
    rfl
  | _ => cases statted

/-- A host reads nine bytes in front, and then as many bytes of metadata as they announce. -/
def decodeStat (reply : List UInt8) : Option BlobMeta :=
  let metadataLen := (u8At 8 reply).toNat
  if reply.length < 9 + metadataLen then none
  else some ⟨u16At 2 reply, u32At 4 reply, (reply.drop 9).take metadataLen⟩

/-- A success reads back as the meta, and announces just the metadata that it carries. -/
def ReadsBack (result : Resp) (info : BlobMeta) : Prop :=
  result.cc = .success → ∃ reply, result.payload = some reply ∧ decodeStat reply = some info ∧
    (u8At 8 reply).toNat = (reply.drop 9).length

section Layout

variable (crc : UInt16) (info : BlobMeta)

theorem stat_metadata : (le16 crc ++ statBytes info).drop 9 = info.metadata := by
  have front : le16 crc ++ statBytes info = (le16 crc ++ (le16 info.blobState ++ (le32 info.size ++
      [UInt8.ofNat info.metadata.length]))) ++ info.metadata := by simp [statBytes]
  rw [front]
  exact List.drop_left' (by simp)

theorem stat_announced :
    (u8At 8 (le16 crc ++ statBytes info)).toNat = info.metadata.length % 256 := by
  have byte : u8At 8 (le16 crc ++ statBytes info) = UInt8.ofNat info.metadata.length := by
    have skipped := Bytes.field_skip 1 0 (length_le32 info.size)
      (UInt8.ofNat info.metadata.length :: info.metadata)
    rw [Nat.zero_add] at skipped
    rw [statBytes, u8At_past _ 6, u8At_past _ 4, u8At, skipped]
    exact u8At_cons _ _
  rw [byte, UInt8.toNat_ofNat']

theorem decodeStat_encoded : decodeStat (le16 crc ++ statBytes info) =
    some { info with metadata := info.metadata.take (info.metadata.length % 256) } := by
  have announced := stat_announced crc info
  have behind := stat_metadata crc info
  have size : (le16 crc ++ statBytes info).length = 9 + info.metadata.length := by
    simp [statBytes]
    omega
  have room : ¬ (le16 crc ++ statBytes info).length <
      9 + (u8At 8 (le16 crc ++ statBytes info)).toNat := by
    have less := Nat.mod_le info.metadata.length 256
    omega
  unfold decodeStat
  simp only
  rw [if_neg room, announced, behind]
  simp [statBytes, u16At_past _ 0, u32At_past _ 2, u32At_past _ 0]

theorem reads_back_iff :
    decodeStat (le16 crc ++ statBytes info) = some info ∧
      (u8At 8 (le16 crc ++ statBytes info)).toNat = ((le16 crc ++ statBytes info).drop 9).length ↔
    info.metadata.length ≤ 255 := by
  rw [decodeStat_encoded, stat_announced, stat_metadata]
  constructor
  · rintro ⟨_, same⟩
    have less := Nat.mod_lt info.metadata.length (show 256 > 0 by decide)
    omega
  · intro short
    have kept : info.metadata.length % 256 = info.metadata.length := Nat.mod_eq_of_lt (by omega)
    rw [kept, List.take_length]
    exact ⟨rfl, rfl⟩

end Layout

theorem sent_reads_back_iff (generateCrc : List UInt8 → UInt16) (maxSize : Nat) (info : BlobMeta) :
    ReadsBack ((Reply.data (statBytes info)).sent generateCrc maxSize) info ↔
      info.metadata.length ≤ 255 ∨ maxSize < info.metadata.length + 9 := by
  have size : (statBytes info).length = info.metadata.length + 7 := by
    simp [statBytes]
    omega
  by_cases fits : (statBytes info).length + 2 ≤ maxSize
  · rw [(sent_carries (statBytes info)).1 fits]
    constructor
    · intro reads
      obtain ⟨reply, payload, back⟩ := reads rfl
      cases payload
      exact .inl ((reads_back_iff _ info).mp back)
    · rintro (short | exceeds) _
      · exact ⟨_, rfl, (reads_back_iff _ info).mpr short⟩
      · omega
  · rw [(sent_carries (statBytes info)).2 (by omega)]
    have failed : responseResponseError.cc ≠ .success := by decide
    exact iff_of_true (fun success => absurd success failed) (.inr (by omega))

/-- A stat reply reads back exactly when its metadata is at most 255 bytes, or is too long
to be sent at all. -/
theorem stat_replies_read_back_iff (generateCrc : List UInt8 → UInt16) (M : ManagerAnswers H)
    (cmd : UInt8) (body : List UInt8) (maxSize : Nat) (seen : List (ManagerEvent H))
    (event : ManagerEvent H) (info : BlobMeta)
    (made : (attended generateCrc M cmd body maxSize seen).2 = seen ++ [event])
    (statted : event.statted = some info) :
    (∃ result, (attended generateCrc M cmd body maxSize seen).1 = .ok result ∧
      ReadsBack result info) ↔
    info.metadata.length ≤ 255 ∨ maxSize < info.metadata.length + 9 := by
  obtain ⟨request, _, rfl, replied⟩ := attended_made made
  rw [reply_data.mpr (statted_encoding statted)] at replied
  rw [← sent_reads_back_iff generateCrc]
  constructor
  · rintro ⟨result, answered, reads⟩
    cases replied.symm.trans answered
    exact reads
  · intro reads
    exact ⟨_, replied, reads⟩

def describing (info : BlobMeta) : ManagerAnswers Unit
  | .stat _, _ | .sessionStat _, _ => some info
  | call, seen => agreeable call seen

theorem describing_run (generateCrc : List UInt8 → UInt16) (info : BlobMeta) (maxSize : Nat) :
    attended generateCrc (describing info) 8 (withCrc generateCrc [97, 0]) maxSize [] =
      (.ok ((Reply.data (statBytes info)).sent generateCrc maxSize), [⟨.stat [97], some info⟩]) := by
  have accepts : Accepts generateCrc 8 (withCrc generateCrc [97, 0]) (.stat [97]) :=
    .checked rfl ⟨[97, 0], rfl, .stat (List.cons_ne_nil 97 [])⟩
  exact attended_accepts accepts (describing info) maxSize []

theorem stat_replies_read_back_three :
    (∃ result, (attended (fun _ => 0x1234) (describing ⟨1, 512, [7, 8, 9]⟩) 8
      (withCrc (fun _ => 0x1234) [97, 0]) 64 []).1 = .ok result ∧
      ReadsBack result ⟨1, 512, [7, 8, 9]⟩) ↔
    [(7 : UInt8), 8, 9].length ≤ 255 ∨ 64 < [(7 : UInt8), 8, 9].length + 9 :=
  stat_replies_read_back_iff (fun _ => 0x1234) (describing ⟨1, 512, [7, 8, 9]⟩) 8
    (withCrc (fun _ => 0x1234) [97, 0]) 64 [] ⟨.stat [97], some ⟨1, 512, [7, 8, 9]⟩⟩ ⟨1, 512, [7, 8, 9]⟩
    (congrArg Prod.snd (describing_run _ _ _)) rfl

theorem long_metadata_unannounced :
    ¬ ∀ (generateCrc : List UInt8 → UInt16) (M : ManagerAnswers Unit) (cmd : UInt8)
      (body : List UInt8) (maxSize : Nat) (seen : List (ManagerEvent Unit))
      (event : ManagerEvent Unit) (info : BlobMeta),
      (attended generateCrc M cmd body maxSize seen).2 = seen ++ [event] →
      event.statted = some info →
      ∃ result, (attended generateCrc M cmd body maxSize seen).1 = .ok result ∧
        ReadsBack result info := by
  intro reads
  obtain ⟨metadata, long⟩ : ∃ metadata : List UInt8, metadata.length = 256 :=
    ⟨List.replicate 256 0, List.length_replicate⟩
  have run := describing_run (fun _ => 0) ⟨0, 0, metadata⟩ 1024
  obtain ⟨result, answered, back⟩ := reads _ _ 8 _ 1024 [] _ _ (congrArg Prod.snd run) rfl
  rw [run] at answered
  cases answered
  have limit := (sent_reads_back_iff _ _ _).mp back
  simp only at limit
  omega

end PhosphorBlobs
