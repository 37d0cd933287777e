import BackupAdmin.Operation.Basic
import BackupAdmin.Proofs.Resource.Encoding

/-! The JSON forms of operations and of what they say about their work, read back. Main statement:
what the service describes is decoded to what it was encoded from, and what is decoded can be encoded
and decoded again without a change. -/
namespace BackupAdmin
open Json

namespace Json

theorem asInt32?_ofInt (w : Int32) : asInt32? (.ofInt w.toInt) = some w := by
  rw [asInt32?, ofInt, asInt?, Option.bind_some, Text.int32?_toInt]

theorem plain_ofInt32 (n : Nat) (w : Int32) : Plain n (.ofInt w.toInt) := by
  have low : Int64.minValue.toInt ≤ Int32.minValue.toInt := by decide
  have high : Int32.maxValue.toInt < UInt64.size := by decide
  exact .int ⟨Int.le_trans low w.minValue_le_toInt, Int.lt_of_le_of_lt w.toInt_le high⟩

@[simp] theorem canonical?_string (s : String) : canonical? (.string s) = some (.string s) := rfl

@[simp] theorem canonical?_ofInt (n : Int) : canonical? (.ofInt n) = some (.ofInt n) := rfl

@[simp] theorem canonical?_ofInstant (t : Instant) :
    canonical? (ofInstant t) = some (ofInstant t) := rfl

/-- What is left of members under different names when those under one name are taken away. -/
theorem filter_name {ms : List (String × Json)} (distinct : (ms.map (·.1)).Nodup) {k : String}
    {v : Json} (found : ms.lookup k = some v) : ms.filter (·.1 = k) = [(k, v)] := by
  induction ms with
  | nil => contradiction
  | cons m ms ih =>
    obtain ⟨new, distinct⟩ := List.nodup_cons.1 distinct
    by_cases here : k = m.1
    · subst here
      have none_left : ms.filter (·.1 = m.1) = [] :=
        List.filter_eq_nil_iff.2 fun n mem same =>
          new (List.mem_map.2 ⟨n, mem, of_decide_eq_true same⟩)
      rw [List.lookup_cons_self] at found
      rw [List.filter_cons_of_pos (by simp), none_left, ← Option.some.inj found]
    · have other : (k == m.1) = false := beq_eq_false_iff_ne.2 here
      rw [List.lookup_cons, other] at found
      rw [List.filter_cons_of_neg (by simpa using Ne.symm here), ih distinct found]

end Json

namespace Progress
variable {p : Progress}

/-- The times are points of dates in range. -/
structure Dated (p : Progress) : Prop where
  startTime : ∀ t ∈ p.startTime, t.Valid
  endTime : ∀ t ∈ p.endTime, t.Valid

theorem dated_default : ({} : Progress).Dated := ⟨nofun, nofun⟩

def slots (p : Progress) : List (String × Option Json) :=
  [("progressPercent", some (.ofInt p.percent.toInt)), ("startTime", p.startTime.map ofInstant),
    ("endTime", p.endTime.map ofInstant)]

theorem encode_eq (p : Progress) : p.encode = record (present p.slots) := by
  simp [encode, slots]

theorem canonical?_encode (p : Progress) : canonical? p.encode = some p.encode := by
  rw [encode_eq]
  exact canonical?_present (by simp [slots])

theorem plain_encode (p : Progress) : Plain 1 p.encode := by
  rw [encode_eq]
  exact .present (by simp [slots, plain_ofInt32])

theorem decode?_encode (dated : p.Dated) : decode? p.encode = some p := by
  obtain ⟨fs, read, found⟩ := fields?_record p.slots
    ["progressPercent", "startTime", "endTime"] rfl (by decide)
  simp only [slots, List.forall_mem_cons] at found
  obtain ⟨percent, start, finish, -⟩ := found
  rw [encode_eq, decode?]
  simp only [Option.bind_eq_bind]
  rw [bind_of_eq_some read,
    bind_of_eq_some (Fields.orElse_of_lookup percent (asInt32?_ofInt p.percent) _),
    bind_of_eq_some (optional_instant dated.startTime start),
    bind_of_eq_some (optional_instant dated.endTime finish)]

theorem dated_of_decode? {v : Json} (decoded : decode? v = some p) : p.Dated := by
  simp only [decode?, Option.bind_eq_bind, Option.bind_eq_some_iff] at decoded
  obtain ⟨fs, -, percent, -, start, h₁, finish, h₂, same⟩ := decoded
  obtain rfl := Option.some.inj same
  exact ⟨valid_of_optional h₁, valid_of_optional h₂⟩

theorem dated_of_orElse {fs : Fields} {k : String} (read : fs.orElse k {} decode? = some p) :
    p.Dated := by
  rcases Fields.cases_of_orElse read with rfl | ⟨v, decoded⟩
  · exact dated_default
  · exact dated_of_decode? decoded

end Progress

theorem BackupInfo.canonical?_encode (b : BackupInfo) : canonical? b.encode = some b.encode := by
  rw [encode_eq]
  exact canonical?_present (by simp [slots])

namespace Metadata
variable {m : Metadata}

/-- The times are points of dates in range. -/
def Dated : Metadata → Prop
  | .createBackup _ _ p cancel | .copyBackup _ _ p cancel => p.Dated ∧ ∀ t ∈ cancel, t.Valid
  | .restoreDatabase _ _ info p _ => (∀ b ∈ info, b.Dated) ∧ p.Dated
  | .optimizeRestored _ p => p.Dated
  | .createDatabase _ | .unknown => True

/-- The type of work and the slots of its fields. -/
def slots : Metadata → String × List (String × Option Json)
  | .createBackup name database progress cancelTime =>
    (createBackupType, [("name", some (.string name)), ("database", some (.string database)),
      ("progress", some progress.encode), ("cancelTime", cancelTime.map ofInstant)])
  | .copyBackup name source progress cancelTime =>
    (copyBackupType, [("name", some (.string name)), ("sourceBackup", some (.string source)),
      ("progress", some progress.encode), ("cancelTime", cancelTime.map ofInstant)])
  | .restoreDatabase name sourceType info progress optimize =>
    (restoreDatabaseType, [("name", some (.string name)), ("sourceType", some (.string sourceType)),
      ("backupInfo", info.map BackupInfo.encode), ("progress", some progress.encode),
      ("optimizeDatabaseOperationName", textSlot optimize)])
  | .optimizeRestored name progress =>
    (optimizeRestoredType, [("name", some (.string name)), ("progress", some progress.encode)])
  | .createDatabase database => (createDatabaseType, [("database", some (.string database))])
  | .unknown => ("Unknown", [])

theorem encode_eq (m : Metadata) :
    m.encode = record (present (("@type", some (.string m.slots.1)) :: m.slots.2)) := by
  cases m <;> simp [encode, slots]

theorem sorted_slots (m : Metadata) : ∀ s ∈ m.slots.2, ∀ v ∈ s.2, canonical? v = some v := by
  cases m <;> simp [slots, Progress.canonical?_encode, BackupInfo.canonical?_encode, textSlot]

theorem plain_encode (m : Metadata) : Plain 2 m.encode := by
  rw [encode_eq]
  refine .present (List.forall_mem_cons.2 ⟨by simp, ?_⟩)
  cases m with
  | restoreDatabase => simpa [slots, Progress.plain_encode, BackupInfo.plain_encode] using
      fun _ => plain_textSlot
  | _ => simp [slots, Progress.plain_encode]

/-- Work is read by its type from the fields that stand beside the type. -/
theorem decode?_record (type : String) (names : List String) {slots : List (String × Option Json)}
    (same : slots.map (·.1) = names) (distinct : ("@type" :: names).Nodup)
    (sorted : ∀ s ∈ slots, ∀ v ∈ s.2, canonical? v = some v) :
    ∃ ms fs, decode? (record (present (("@type", some (.string type)) :: slots))) =
        decodeAs? type (.object ms) ∧
      fields? names (.object ms) = some fs ∧ ∀ s ∈ slots, fs.lookup s.1 = s.2 := by
  subst same
  have names : ((("@type", some (Json.string type)) :: slots).map (·.1)).Nodup := distinct
  obtain ⟨all, all_eq⟩ : ∃ all, all = present (("@type", some (.string type)) :: slots) := ⟨_, rfl⟩
  have distinct_all : (all.map (·.1)).Nodup := all_eq ▸ (names_present _).nodup names
  have found : ∀ s ∈ ("@type", some (.string type)) :: slots,
      (sortMembers all).lookup s.1 = s.2 := by
    intro s mem
    rw [lookup_sortMembers distinct_all, all_eq, lookup_present names mem]
  have type_found : (sortMembers all).filter (·.1 = "@type") = [("@type", .string type)] :=
    filter_name (distinct_sortMembers all) (found _ List.mem_cons_self)
  have sorted_all : ∀ m ∈ all, canonical? m.2 = some m.2 := by
    rintro ⟨k, v⟩ mem
    rcases List.mem_cons.1 (mem_present.1 (all_eq ▸ mem)) with same | mem
    · rw [Option.some.inj (Prod.mk.inj same).2]
      rfl
    · exact sorted _ mem v rfl
  have readable : (Json.object ((sortMembers all).filter (·.1 ≠ "@type"))).canonical?.isSome := by
    rw [canonical?_object fun m mem => forall_sortMembers sorted_all m (List.mem_of_mem_filter mem)]
    rfl
  have distinct_rest : (((sortMembers all).filter (·.1 ≠ "@type")).map (·.1)).Nodup :=
    (List.filter_sublist.map _).nodup (distinct_sortMembers all)
  obtain ⟨fs, read, fields⟩ := exists_fields (slots.map (·.1)) distinct_rest
  refine ⟨_, fs, ?_, read, fun s mem => ?_⟩
  · rw [← all_eq, record, decode?]
    simp only [type_found, readable, if_true]
  · have named := List.mem_map_of_mem (f := (·.1)) mem
    have other : s.1 ≠ "@type" := fun same => (List.nodup_cons.1 distinct).1 (same ▸ named)
    rw [fields s.1 named, Catalog.lookup_filter_ne, if_neg other]
    exact found s (List.mem_cons_of_mem _ mem)

theorem decode?_encode (dated : m.Dated) : decode? m.encode = some m := by
  have progress' {fs : Fields} {p : Progress} (dated : p.Dated)
      (found : fs.lookup "progress" = some p.encode) :
      fs.orElse "progress" {} Progress.decode? = some p :=
    Fields.orElse_of_lookup found (Progress.decode?_encode dated) _
  rw [encode_eq]
  cases m with
  | createBackup name database progress cancelTime =>
    obtain ⟨ms, fs, reads, fields, found⟩ := decode?_record createBackupType
      ["name", "database", "progress", "cancelTime"] rfl (by decide)
      (sorted_slots (.createBackup name database progress cancelTime))
    simp only [slots, List.forall_mem_cons] at found
    obtain ⟨h₁, h₂, h₃, h₄, -⟩ := found
    refine reads.trans ?_
    rw [decodeAs?, if_pos rfl]
    simp only [Option.bind_eq_bind]
    rw [bind_of_eq_some fields, bind_of_eq_some (Fields.orElse_string h₁ _),
      bind_of_eq_some (Fields.orElse_string h₂ _), bind_of_eq_some (progress' dated.1 h₃),
      bind_of_eq_some (optional_instant dated.2 h₄)]
  | copyBackup name source progress cancelTime =>
    obtain ⟨ms, fs, reads, fields, found⟩ := decode?_record copyBackupType
      ["name", "sourceBackup", "progress", "cancelTime"] rfl (by decide)
      (sorted_slots (.copyBackup name source progress cancelTime))
    simp only [slots, List.forall_mem_cons] at found
    obtain ⟨h₁, h₂, h₃, h₄, -⟩ := found
    refine reads.trans ?_
    rw [decodeAs?, if_neg (by decide), if_pos rfl]
    simp only [Option.bind_eq_bind]
    rw [bind_of_eq_some fields, bind_of_eq_some (Fields.orElse_string h₁ _),
      bind_of_eq_some (Fields.orElse_string h₂ _), bind_of_eq_some (progress' dated.1 h₃),
      bind_of_eq_some (optional_instant dated.2 h₄)]
  | restoreDatabase name sourceType info progress optimize =>
    obtain ⟨ms, fs, reads, fields, found⟩ := decode?_record restoreDatabaseType
      ["name", "sourceType", "backupInfo", "progress", "optimizeDatabaseOperationName"]
      rfl (by decide) (sorted_slots (.restoreDatabase name sourceType info progress optimize))
    simp only [slots, List.forall_mem_cons] at found
    obtain ⟨h₁, h₂, h₃, h₄, h₅, -⟩ := found
    have info' : fs.optional "backupInfo" BackupInfo.decode? = some info :=
      Fields.optional_of_lookup h₃ fun b mem =>
          ⟨BackupInfo.decode?_encode (dated.1 b mem), record_ne_null _⟩
    refine reads.trans ?_
    rw [decodeAs?, if_neg (by decide), if_neg (by decide), if_pos rfl]
    simp only [Option.bind_eq_bind]
    rw [bind_of_eq_some fields, bind_of_eq_some (Fields.orElse_string h₁ _),
      bind_of_eq_some (Fields.orElse_string h₂ _), bind_of_eq_some info',
      bind_of_eq_some (progress' dated.2 h₄), bind_of_eq_some (Fields.orElse_text h₅)]
  | optimizeRestored name progress =>
    obtain ⟨ms, fs, reads, fields, found⟩ := decode?_record optimizeRestoredType
      ["name", "progress"] rfl (by decide)
      (sorted_slots (.optimizeRestored name progress))
    simp only [slots, List.forall_mem_cons] at found
    obtain ⟨h₁, h₂, -⟩ := found
    refine reads.trans ?_
    rw [decodeAs?, if_neg (by decide), if_neg (by decide), if_neg (by decide), if_pos rfl]
    simp only [Option.bind_eq_bind]
    rw [bind_of_eq_some fields, bind_of_eq_some (Fields.orElse_string h₁ _),
      bind_of_eq_some (progress' dated h₂)]
  | createDatabase database =>
    obtain ⟨ms, fs, reads, fields, found⟩ := decode?_record createDatabaseType
      ["database"] rfl (by decide) (sorted_slots (.createDatabase database))
    simp only [slots, List.forall_mem_cons] at found
    obtain ⟨h₁, -⟩ := found
    refine reads.trans ?_
    rw [decodeAs?, if_neg (by decide), if_neg (by decide), if_neg (by decide), if_neg (by decide),
      if_pos rfl]
    simp only [Option.bind_eq_bind]
    rw [bind_of_eq_some fields, bind_of_eq_some (Fields.orElse_string h₁ _)]
  | unknown => decide

theorem dated_of_decodeAs? {type : String} {v : Json} (decoded : decodeAs? type v = some m) :
    m.Dated := by
  unfold decodeAs? at decoded
  simp only [Option.bind_eq_bind] at decoded
  split at decoded
  · simp only [Option.bind_eq_some_iff] at decoded
    obtain ⟨fs, -, name, -, database, -, progress, h₁, cancel, h₂, same⟩ := decoded
    obtain rfl := Option.some.inj same
    exact ⟨Progress.dated_of_orElse h₁, valid_of_optional h₂⟩
  split at decoded
  · simp only [Option.bind_eq_some_iff] at decoded
    obtain ⟨fs, -, name, -, source, -, progress, h₁, cancel, h₂, same⟩ := decoded
    obtain rfl := Option.some.inj same
    exact ⟨Progress.dated_of_orElse h₁, valid_of_optional h₂⟩
  split at decoded
  · simp only [Option.bind_eq_some_iff] at decoded
    obtain ⟨fs, -, name, -, source, -, info, h₁, progress, h₂, optimize, -, same⟩ := decoded
    obtain rfl := Option.some.inj same
    refine ⟨fun b mem => ?_, Progress.dated_of_orElse h₂⟩
    obtain ⟨w, -, read⟩ := Fields.read_of_optional h₁ b mem
    exact BackupInfo.dated_of_decode? read
  split at decoded
  · simp only [Option.bind_eq_some_iff] at decoded
    obtain ⟨fs, -, name, -, progress, h₁, same⟩ := decoded
    obtain rfl := Option.some.inj same
    exact Progress.dated_of_orElse h₁
  split at decoded
  · simp only [Option.bind_eq_some_iff] at decoded
    obtain ⟨fs, -, database, -, same⟩ := decoded
    obtain rfl := Option.some.inj same
    trivial
  split at decoded
  · obtain rfl := Option.some.inj decoded
    trivial
  split at decoded
  · obtain rfl := Option.some.inj decoded
    trivial
  · contradiction

theorem dated_of_decode? {v : Json} (decoded : decode? v = some m) : m.Dated := by
  unfold decode? at decoded
  split at decoded
  · split at decoded
    · exact dated_of_decodeAs? (Option.ite_none_right_eq_some.1 decoded).2
    · contradiction
  · exact dated_of_decodeAs? (Option.ite_none_right_eq_some.1 decoded).2
  · contradiction

end Metadata

namespace OperationError

def slots (e : OperationError) : List (String × Option Json) :=
  [("code", some (.ofInt e.code.toInt)), ("message", some (.string e.message))]

theorem encode_eq (e : OperationError) : e.encode = record (present e.slots) := by
  simp [encode, slots]

theorem plain_encode (e : OperationError) : Plain 1 e.encode := by
  rw [encode_eq]
  exact .present (by simp [slots, plain_ofInt32])

theorem decode?_encode (e : OperationError) : decode? e.encode = some e := by
  obtain ⟨fs, read, found⟩ := fields?_record e.slots ["code", "message"] rfl
    (by decide)
  simp only [slots, List.forall_mem_cons] at found
  obtain ⟨code, message, -⟩ := found
  rw [encode_eq, decode?]
  simp only [Option.bind_eq_bind]
  rw [bind_of_eq_some read,
    bind_of_eq_some (Fields.orElse_of_lookup code (asInt32?_ofInt e.code) _),
    bind_of_eq_some (Fields.orElse_string message _)]

end OperationError

namespace Operation
variable {o : Operation}

/-- The times are points of dates in range; a response is sorted, and not null, which would stand
for none. -/
structure Fits (o : Operation) : Prop where
  metadata : ∀ m ∈ o.metadata, m.Dated
  response : ∀ v ∈ o.response, canonical? v = some v ∧ v ≠ .null

def slots (o : Operation) : List (String × Option Json) :=
  [("name", some (.string o.name)), ("metadata", o.metadata.map Metadata.encode),
    ("done", some (.bool o.done)), ("error", o.error.map OperationError.encode),
    ("response", o.response.map id)]

theorem encode_eq (o : Operation) : o.encode = record (present o.slots) := by
  simp only [encode, slots, present_some, present_optional, present_nil, List.append_nil,
    List.cons_append, List.append_assoc]

theorem plain_encode {n : Nat} (room : 2 ≤ n) (response : ∀ v ∈ o.response, Plain n v) :
    Plain (n + 1) o.encode := by
  have metadata (m : Metadata) : Plain n m.encode := m.plain_encode.mono room
  have error (e : OperationError) : Plain n e.encode := e.plain_encode.mono (by omega)
  rw [encode_eq]
  exact .present (by simpa [slots, metadata, error] using response)

theorem decode?_encode (fits : o.Fits) : decode? o.encode = some o := by
  obtain ⟨fs, read, found⟩ := fields?_record o.slots
    ["name", "metadata", "done", "error", "response"] rfl (by decide)
  simp only [slots, List.forall_mem_cons] at found
  obtain ⟨name, metadata, done, error, response, -⟩ := found
  have name' : fs.required "name" asString? = some o.name := by
    rw [Fields.required, name]
    rfl
  have metadata' : fs.optional "metadata" Metadata.decode? = some o.metadata :=
    Fields.optional_of_lookup metadata fun m mem =>
      ⟨Metadata.decode?_encode (fits.metadata m mem), m.encode_eq ▸ record_ne_null _⟩
  have done' : fs.orElse "done" false asBool? = some o.done := by
    rw [Fields.orElse, done]
    rfl
  have error' : fs.optional "error" OperationError.decode? = some o.error :=
    Fields.optional_of_lookup error fun e _ => ⟨e.decode?_encode, record_ne_null _⟩
  rw [encode_eq, decode?]
  simp only [Option.bind_eq_bind]
  rw [bind_of_eq_some read, bind_of_eq_some name', bind_of_eq_some metadata', bind_of_eq_some done',
    bind_of_eq_some error', bind_of_eq_some (Fields.optional_of_lookup response fits.response)]

theorem fits_of_decode? {v : Json} (decoded : decode? v = some o) : o.Fits := by
  simp only [decode?, Option.bind_eq_bind, Option.bind_eq_some_iff] at decoded
  obtain ⟨fs, -, name, -, metadata, h₁, done, -, error, -, response, h₂, same⟩ := decoded
  obtain rfl := Option.some.inj same
  refine ⟨fun m mem => ?_, fun w mem => ?_⟩
  · obtain ⟨u, -, read⟩ := Fields.read_of_optional h₁ m mem
    exact Metadata.dated_of_decode? read
  · obtain ⟨u, there, sort⟩ := Fields.read_of_optional h₂ w mem
    refine ⟨canonical?_idem sort, ?_⟩
    rintro rfl
    exact there (eq_null_of_canonical? sort)

end Operation
section
variable {α : Type}

/-- What is encoded is decoded to what it was, as a value and from its text on one line, and what was
decoded from any value is encoded and decoded again without a change. `Fits` says which values are
meant, and `Flat` what their text takes besides. -/
structure Json.RoundTrip (encode : α → Json) (decode? : Json → Option α) (Fits Flat : α → Prop) :
    Prop where
  back : ∀ a, Fits a → decode? (encode a) = some a
  text : ∀ a, Fits a → Flat a → (read (compact (encode a))).bind decode? = some a
  again : ∀ v a, decode? v = some a → decode? (encode a) = some a

theorem Json.RoundTrip.of_plain {encode : α → Json} {decode? : Json → Option α}
    {Fits Flat : α → Prop} {n : Nat} (deep : n < depthLimit)
    (back : ∀ {a}, Fits a → decode? (encode a) = some a)
    (fits : ∀ {v a}, decode? v = some a → Fits a) (plain : ∀ a, Flat a → Plain n (encode a)) :
    RoundTrip encode decode? Fits Flat where
  back _ := back
  text a fits flat := by rw [read_compact (plain a flat) deep, Option.bind_some, back fits]
  again _ _ decoded := back (fits decoded)

end

/-- A response whose numbers have no point and that leaves the operation within the depth that can be
read. -/
def Operation.Flat (o : Operation) : Prop := ∀ v ∈ o.response, Plain (depthLimit - 2) v

/-- What the service describes is read back, and what was read can be written again. -/
theorem roundTrip_descriptions :
    RoundTrip Backup.encode Backup.decode? Backup.Dated (fun _ => True) ∧
      RoundTrip Database.encode Database.decode? Database.Dated (fun _ => True) ∧
      RoundTrip EncryptionConfig.encode EncryptionConfig.decode? (fun _ => True) (fun _ => True) ∧
      RoundTrip Metadata.encode Metadata.decode? Metadata.Dated (fun _ => True) ∧
      RoundTrip Operation.encode Operation.decode? Operation.Fits Operation.Flat := by
  refine ⟨?_, ?_, ?_, ?_, ?_⟩
  · exact .of_plain (by decide) Backup.decode?_encode Backup.dated_of_decode?
      fun b _ => b.plain_encode
  · exact .of_plain (by decide) Database.decode?_encode Database.dated_of_decode?
      fun d _ => d.plain_encode
  · exact .of_plain (by decide) (fun {e} _ => e.decode?_encode) (fun _ => trivial)
      fun e _ => e.plain_encode
  · exact .of_plain (by decide) Metadata.decode?_encode Metadata.dated_of_decode?
      fun m _ => m.plain_encode
  · exact .of_plain (by decide) Operation.decode?_encode Operation.fits_of_decode?
      fun o flat => o.plain_encode (by decide) flat

/-- A leap second and a response with numbers are read back from the text. -/
theorem roundTrip_restored :
    let t : Instant := ⟨1483228799, 1500000000⟩
    let work : Metadata :=
      .restoreDatabase "d" "BACKUP" (some ⟨"b", some t, none, ""⟩) ⟨100, some t, none⟩ ""
    let o : Operation :=
      ⟨"operations/7", some work, true, none, some (.object [("n", .array [.ofInt (-3), .null])])⟩
    o.Fits ∧ o.Flat ∧ (read (compact o.encode)).bind Operation.decode? = some o := by
  intro t work o
  have valid : t.Valid := ⟨by decide, by decide, by decide⟩
  have fits : o.Fits := by
    refine ⟨?_, ?_⟩
    · rintro m ⟨⟩
      exact ⟨by rintro b ⟨⟩; exact ⟨by rintro u ⟨⟩; exact valid, nofun⟩,
        by rintro u ⟨⟩; exact valid, nofun⟩
    · rintro v ⟨⟩
      exact ⟨by decide, nofun⟩
  have flat : o.Flat := by
    rintro v ⟨⟩
    refine .object (List.forall_mem_singleton.2 (.array ?_))
    exact List.forall_mem_cons.2 ⟨.int ⟨by decide, by decide⟩, List.forall_mem_singleton.2 .null⟩
  exact ⟨fits, flat, roundTrip_descriptions.2.2.2.2.text o fits flat⟩

end BackupAdmin
