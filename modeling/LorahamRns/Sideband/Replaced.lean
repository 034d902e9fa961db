import LorahamRns.Sideband.Enable

/-!
# What the script leaves behind

The rename is atomic, but what it puts in place is only as complete as the one
`os.write` before it, and only as full as what the script has read.
-/

namespace LorahamRns.Sideband

open LorahamRns.Lib
open Program (execute_bind execute_rescue)

/-! ## Dicts -/

namespace Dict

variable {Object : Type} [DecidableEq Object] {dict : Dict Object} {key other value : Object}

theorem get_cons (item : Object × Object) :
    get (item :: dict) key = if item.1 = key then some item.2 else dict.get key := by
  unfold get
  rw [List.find?_cons]
  by_cases same : item.1 = key
  · simp [same]
  · simp [same]

theorem get_map : get (dict.map fun item => if item.1 = key then (item.1, value) else item) other =
    if other = key ∧ (dict.any fun item => item.1 = key) then some value else dict.get other := by
  induction dict with
  | nil => simp [get]
  | cons item rest ih =>
      rw [List.map_cons, get_cons, get_cons, ih, List.any_cons]
      by_cases here : item.1 = key
      · by_cases same : other = key
        · simp [here, same]
        · have apart : key ≠ other := Ne.symm same
          simp [here, same, apart]
      · by_cases same : item.1 = other
        · subst same
          simp [here]
        · rw [if_neg here, if_neg same, if_neg same, decide_eq_false here, Bool.false_or]

theorem get_append_singleton :
    get (dict ++ [(key, value)]) other =
      if (dict.get other).isSome then dict.get other else if key = other then some value else none := by
  induction dict with
  | nil => simp [get]
  | cons item rest ih =>
      rw [List.cons_append, get_cons, get_cons, ih]
      by_cases here : item.1 = other
      · simp [here]
      · simp [here]

theorem isSome_get : (dict.get key).isSome = dict.any fun item => item.1 = key := by
  induction dict with
  | nil => rfl
  | cons item rest ih =>
      rw [get_cons, List.any_cons, ← ih]
      by_cases here : item.1 = key <;> simp [here]

theorem get_set : (dict.set key value).get other =
    if other = key then some value else dict.get other := by
  unfold set
  split
  case isTrue found => rw [get_map, found]; simp
  case isFalse new =>
    rw [get_append_singleton]
    by_cases same : other = key
    · subst same
      rw [← isSome_get] at new
      simp [new]
    · have apart : key ≠ other := Ne.symm same
      simp only [same, apart, if_false]
      cases dict.get other <;> rfl

end Dict

section Replacing

variable {Object : Type} [DecidableEq Object] {codec : Codec Object} {outcomes : Outcomes}
  {disk : Disk}

theorem get_updated (documented : codec.Documented) (config : Dict Object) (pluginsDir : Text)
    (key : Object) :
    (updated codec config pluginsDir).get key =
      if key = codec.text enabledKey then some (codec.bool true)
      else if key = codec.text pathKey then some (codec.text pluginsDir)
      else config.get key := by
  have apart : codec.text enabledKey ≠ codec.text pathKey :=
    documented.text_injective.ne (by decide +kernel)
  rw [updated, Dict.get_set, Dict.get_set]
  by_cases same : key = codec.text enabledKey
  · simp [same, apart]
  · simp [same]

/-! ## How far the script gets -/

/-- All calls around the write succeed, from the temporary file to the rename. -/
def Outcomes.renames (outcomes : Outcomes) : Bool :=
  outcomes.fsync && outcomes.close && outcomes.chmod && outcomes.replace

/-- Every call up to the rename succeeds, the write and `isfile` apart. -/
def Outcomes.reaches (outcomes : Outcomes) : Bool :=
  outcomes.makeConfigDir && outcomes.makePluginsDir &&
    (!outcomes.isfile || outcomes.readConfig) && outcomes.openTemp && outcomes.renames

theorem execute_require (effect : Effect) (succeeded : effect.Answer → Bool) (disk : Disk) :
    (require effect succeeded).execute outcomes.answers disk =
      (if succeeded (outcomes.answers effect disk).1 then .ok () else .error .os,
        (outcomes.answers effect disk).2) := by
  by_cases success : succeeded (outcomes.answers effect disk).1 = true <;>
    simp [require, Program.execute, success]

omit [DecidableEq Object] in
/-- The temporary file is renamed as far as it was written, or the file is left alone. -/
theorem install_outcome (config : Dict Object) (mode : ℕ) (empty : disk.temp = some []) :
    (∃ blob count, codec.packb config = some blob ∧ outcomes.write = some count ∧
      outcomes.renames = true ∧
      ((install codec config mode).execute outcomes.answers disk).2 =
        ⟨some (blob.take count), none, true⟩) ∨
    ((∀ blob count, codec.packb config = some blob → outcomes.write = some count →
        outcomes.renames = false) ∧
      ((install codec config mode).execute outcomes.answers disk).1 ≠ .ok () ∧
      ((install codec config mode).execute outcomes.answers disk).2.config = disk.config ∧
      ((install codec config mode).execute outcomes.answers disk).2.renamed = disk.renamed) := by
  unfold install Program.ensuring
  cases packed : codec.packb config with
  | none =>
      refine Or.inr ⟨nofun, ?_⟩
      cases closed : outcomes.close <;>
        simp [execute_bind, execute_rescue, execute_require, Program.execute, Outcomes.answers,
          closed]
  | some blob =>
      cases written : outcomes.write with
      | none =>
          refine Or.inr ⟨nofun, ?_⟩
          cases closed : outcomes.close <;>
            simp [execute_bind, execute_rescue, execute_require, Program.execute,
              Outcomes.answers, written, closed]
      | some count =>
          by_cases renames : outcomes.renames = true
          · have all := renames
            simp only [Outcomes.renames, Bool.and_eq_true] at all
            obtain ⟨⟨⟨synced, closed⟩, moded⟩, replaced⟩ := all
            refine Or.inl ⟨blob, count, rfl, rfl, renames, ?_⟩
            cases opened : outcomes.openDirectory <;>
              cases directory : outcomes.fsyncDirectory <;>
              cases left : outcomes.closeDirectory <;>
              simp [execute_bind, execute_rescue, execute_require, Program.execute,
                Outcomes.answers, written, synced, closed, moded, replaced, opened, directory,
                left, empty]
          · have some' := Bool.not_eq_true _ ▸ renames
            refine Or.inr ⟨fun _ _ _ _ => some', ?_⟩
            unfold Outcomes.renames at some'
            cases synced : outcomes.fsync <;> cases closed : outcomes.close <;>
              cases moded : outcomes.chmod <;> cases replaced : outcomes.replace <;>
              simp_all [execute_bind, execute_rescue, execute_require, Program.execute,
                Outcomes.answers]

/-- How a run ends: with the packed dict in place as far as it was written, or with the
file as it was. -/
def Ended (codec : Codec Object) (outcomes : Outcomes) (config : Dict Object) (pluginsDir : Text)
    (passes : Bool) (disk : Disk) (run : Except Raised ℕ × Disk) : Prop :=
  (∃ blob count, codec.packb (updated codec config pluginsDir) = some blob ∧
    outcomes.write = some count ∧ passes = true ∧
    run.2.config = some (blob.take count) ∧ run.2.renamed = true) ∨
  ((∀ blob count, codec.packb (updated codec config pluginsDir) = some blob →
      outcomes.write = some count → passes = false) ∧
    run.1 ≠ .ok 0 ∧ run.2.config = disk.config ∧ run.2.renamed = disk.renamed)

theorem enable_outcome (pluginsDir : Text) (config : Dict Object) (disk : Disk) :
    Ended codec outcomes config pluginsDir (outcomes.openTemp && outcomes.renames) disk
      ((enable codec pluginsDir config).execute outcomes.answers disk) := by
  unfold enable catchOs stat unlink Program.perform
  cases created : outcomes.openTemp with
  | false =>
      refine Or.inr ⟨fun _ _ _ _ => rfl, ?_⟩
      simp [execute_bind, execute_require, Program.execute, Outcomes.answers, created]
  | true =>
      have installed := @install_outcome _ codec outcomes { disk with temp := some [] }
        (updated codec config pluginsDir) (ownerMode outcomes.stat) rfl
      simp only [Program.bind_eq, Program.pure_eq, Program.bind, execute_bind, execute_rescue,
        execute_require, Program.execute, Outcomes.answers, created, id, if_true]
      generalize (install codec (updated codec config pluginsDir) (ownerMode outcomes.stat)).execute
        outcomes.answers { disk with temp := some [] } = run at installed
      obtain ⟨result, after⟩ := run
      have unlinked (disk : Disk) :
          (outcomes.answers .unlink disk).2.config = disk.config ∧
            (outcomes.answers .unlink disk).2.renamed = disk.renamed := by
        unfold Outcomes.answers
        dsimp only
        split <;> exact ⟨rfl, rfl⟩
      rcases installed with ⟨blob, count, packed, written, renames, after_eq⟩ |
        ⟨never, failed, kept, still⟩
      · refine Or.inl ⟨blob, count, packed, written, renames, ?_⟩
        dsimp only at after_eq
        subst after_eq
        match result with
        | .ok _ => exact ⟨rfl, rfl⟩
        | .error .os => exact unlinked ⟨some (blob.take count), none, true⟩
        | .error .pack => exact ⟨rfl, rfl⟩
      · refine Or.inr ⟨never, ?_⟩
        match result with
        | .ok _ => exact absurd rfl failed
        | .error .os =>
            exact ⟨by simp [Program.execute], (unlinked after).1.trans kept,
              (unlinked after).2.trans still⟩
        | .error .pack => exact ⟨nofun, kept, still⟩

/-- What the script has read when it sets its keys. -/
def readBack (outcomes : Outcomes) (old : Dict Object) : Dict Object :=
  if outcomes.isfile then old else []

theorem main_outcome {program configDir pluginsDir : Text} {raw : Bytes} {old : Dict Object}
    (held : disk.config = some raw) (decoded : codec.unpackb raw = some (.dict old)) :
    Ended codec outcomes (readBack outcomes old) pluginsDir outcomes.reaches disk
      ((main codec [program, configDir, pluginsDir]).execute outcomes.answers disk) := by
  have enabled := @enable_outcome _ _ codec outcomes pluginsDir (readBack outcomes old) disk
  unfold main Outcomes.reaches isfile readConfig Program.perform
  cases configured : outcomes.makeConfigDir with
  | false =>
      refine Or.inr ⟨fun _ _ _ _ => rfl, ?_⟩
      simp [execute_bind, execute_require, Outcomes.answers, configured]
  | true =>
      cases plugged : outcomes.makePluginsDir with
      | false =>
          refine Or.inr ⟨fun _ _ _ _ => rfl, ?_⟩
          simp [execute_bind, execute_require, Outcomes.answers, configured, plugged]
      | true =>
          cases seen : outcomes.isfile with
          | false =>
              have unread : readBack outcomes old = [] := by simp [readBack, seen]
              rw [unread] at enabled ⊢
              simpa [execute_bind, execute_require, Program.execute, Outcomes.answers,
                configured, plugged, seen] using enabled
          | true =>
              cases opened : outcomes.readConfig with
              | false =>
                  refine Or.inr ⟨fun _ _ _ _ => rfl, ?_⟩
                  simp [execute_bind, execute_require, Program.execute, Outcomes.answers,
                    configured, plugged, seen, opened, held]
              | true =>
                  have read : readBack outcomes old = old := by simp [readBack, seen]
                  rw [read] at enabled ⊢
                  simpa [execute_bind, execute_require, Program.execute, Outcomes.answers,
                    configured, plugged, seen, opened, held, decoded] using enabled

/-! ## The old configuration and the new one -/

/-- The file decodes to the old map with the two keys set and every other key unchanged. -/
def Disk.Updated (codec : Codec Object) (old : Dict Object) (pluginsDir : Text) (disk : Disk) :
    Prop :=
  ∃ blob config, disk.config = some blob ∧ codec.unpackb blob = some (.dict config) ∧
    ∀ key, config.get key =
      if key = codec.text enabledKey then some (codec.bool true)
      else if key = codec.text pathKey then some (codec.text pluginsDir)
      else old.get key

/-- What is asked of a run on the configuration `raw`. -/
structure Safe (codec : Codec Object) (old : Dict Object) (pluginsDir : Text) (raw : Bytes)
    (run : Except Raised ℕ × Disk) : Prop where
  success : run.1 = .ok 0 → run.2.Updated codec old pluginsDir
  failure : run.1 ≠ .ok 0 → run.2.renamed = false → run.2.config = some raw
  whole : run.2.config = some raw ∨ run.2.Updated codec old pluginsDir

/-- Where every call up to the rename succeeds, the write takes all bytes, and `isfile` has
seen the file unless it holds no other key. -/
def Outcomes.Careful (codec : Codec Object) (outcomes : Outcomes) (old : Dict Object)
    (pluginsDir : Text) : Prop :=
  outcomes.reaches = true → ∀ blob count,
    codec.packb (updated codec (readBack outcomes old) pluginsDir) = some blob →
    outcomes.write = some count →
    blob.length ≤ count ∧ (outcomes.isfile = true ∨
      ∀ key, old.get key ≠ none → key = codec.text enabledKey ∨ key = codec.text pathKey)

/-- The script replaces the file safely exactly on careful outcomes. -/
theorem main_safe_iff (documented : codec.Documented) {program configDir pluginsDir : Text}
    {raw : Bytes} {old : Dict Object} (held : disk.config = some raw)
    (decoded : codec.unpackb raw = some (.dict old)) :
    Safe codec old pluginsDir raw
        ((main codec [program, configDir, pluginsDir]).execute outcomes.answers disk) ↔
      outcomes.Careful codec old pluginsDir := by
  have ended := @main_outcome _ _ codec outcomes disk program configDir pluginsDir raw old held decoded
  generalize (main codec [program, configDir, pluginsDir]).execute outcomes.answers disk = run
    at ended ⊢
  obtain ⟨result, after⟩ := run
  have others {key : Object} (first : key ≠ codec.text enabledKey)
      (second : key ≠ codec.text pathKey) (config : Dict Object) :
      (updated codec config pluginsDir).get key = config.get key := by
    rw [get_updated documented, if_neg first, if_neg second]
  rcases ended with ⟨blob, count, packed, written, reaches, placed, renamed⟩ |
    ⟨never, failed, kept, still⟩
  · dsimp only at placed renamed
    have roundTrip := documented.roundTrip _ _ packed
    constructor
    · rintro ⟨_, _, whole⟩ _ blob' count' packed' written'
      obtain rfl := Option.some_inj.mp (packed.symm.trans packed')
      obtain rfl := Option.some_inj.mp (written.symm.trans written')
      have long : blob.length ≤ count := by
        by_contra short
        have cut := documented.insufficient _ _ _ packed (not_le.mp short)
        rcases whole with same | ⟨blob', config, found, unpacked, _⟩
        · rw [← Option.some_inj.mp (placed.symm.trans same), cut] at decoded
          cases decoded
        · rw [← Option.some_inj.mp (placed.symm.trans found), cut] at unpacked
          cases unpacked
      refine ⟨long, or_iff_not_imp_left.mpr fun unseen key found => ?_⟩
      rw [List.take_of_length_le long] at placed
      have unread : readBack outcomes old = [] := by simp [readBack, unseen]
      rw [unread] at roundTrip
      by_contra other
      obtain ⟨first, second⟩ := not_or.mp other
      have missing := others first second []
      rcases whole with same | ⟨blob', config, found', unpacked, gets⟩
      · rw [← Option.some_inj.mp (placed.symm.trans same), roundTrip] at decoded
        obtain ⟨rfl⟩ := decoded
        exact found missing
      · rw [← Option.some_inj.mp (placed.symm.trans found'), roundTrip] at unpacked
        obtain ⟨rfl⟩ := unpacked
        have same := gets key
        rw [if_neg first, if_neg second, missing] at same
        exact found same.symm
    · intro careful
      obtain ⟨long, seen⟩ := careful reaches blob count packed written
      rw [List.take_of_length_le long] at placed
      have updated' : after.Updated codec old pluginsDir := by
        refine ⟨blob, _, placed, roundTrip, fun key => ?_⟩
        rw [get_updated documented]
        rcases seen with seen | only
        · simp [readBack, seen]
        · by_cases first : key = codec.text enabledKey
          · simp [first]
          · by_cases second : key = codec.text pathKey
            · simp [second]
            · have absent : old.get key = none := by
                by_contra found
                rcases only key found with same | same
                · exact first same
                · exact second same
              simp only [first, second, if_false, absent]
              unfold readBack
              split
              · exact absent
              · rfl
      exact ⟨fun _ => updated', fun _ same => absurd (renamed.symm.trans same) (by decide),
        Or.inr updated'⟩
  · dsimp only at failed kept still
    rw [held] at kept
    refine iff_of_true ⟨fun success => absurd success failed, fun _ _ => kept, Or.inl kept⟩ ?_
    intro reaches blob count packed written
    exact absurd (reaches.symm.trans (never blob count packed written)) (by decide)

end Replacing

end LorahamRns.Sideband
