import LorahamRns.Lib.Program

/-!
# enable_sideband_plugins

The script reads Sideband's configuration, sets two of its keys and replaces the file
through a temporary one.  The serialiser is not part of the repository; what is relied on
is stated as `Codec.Documented`.
-/

namespace LorahamRns.Sideband

open LorahamRns.Lib

abbrev Bytes : Type := List UInt8
abbrev Text : Type := List Char

/-! ## Configurations -/

/-- A Python dict in insertion order. -/
abbrev Dict (Object : Type) : Type := List (Object × Object)

namespace Dict

variable {Object : Type} [DecidableEq Object]

def get (dict : Dict Object) (key : Object) : Option Object :=
  (dict.find? fun item => item.1 = key).map Prod.snd

/-- `dict[key] = value`. -/
def set (dict : Dict Object) (key value : Object) : Dict Object :=
  if dict.any fun item => item.1 = key then
    dict.map fun item => if item.1 = key then (item.1, value) else item
  else dict ++ [(key, value)]

end Dict

/-- What `unpackb` returns: a dict, or another object. -/
inductive Unpacked (Object : Type) where
  | dict (dict : Dict Object)
  | other
  deriving DecidableEq

/-- The objects of the serialiser, with the two kinds the script makes itself. -/
structure Codec (Object : Type) where
  text : Text → Object
  bool : Bool → Object
  packb : Dict Object → Option Bytes
  unpackb : Bytes → Option (Unpacked Object)

/-- What the serialiser's documentation promises: strings differ as their texts do, what
is packed unpacks to the same dict, and unpacking raises on data that ends early. -/
structure Codec.Documented {Object : Type} (codec : Codec Object) : Prop where
  text_injective : Function.Injective codec.text
  roundTrip : ∀ dict blob, codec.packb dict = some blob → codec.unpackb blob = some (.dict dict)
  insufficient : ∀ dict blob count, codec.packb dict = some blob → count < blob.length →
    codec.unpackb (blob.take count) = none

/-! ## The script -/

inductive Effect where
  | makeConfigDir
  | makePluginsDir
  | isfile
  | readConfig
  | stat
  | openTemp (mode : ℕ)
  | write (blob : Bytes)
  | fsync
  | close
  | chmod (mode : ℕ)
  | replace
  | openDirectory
  | fsyncDirectory
  | closeDirectory
  | unlink

/-- `false` and `none` where the call raises; `os.path.isfile` does not raise. -/
@[reducible]
def Effect.Answer : Effect → Type
  | .readConfig => Option Bytes
  | .stat => Option ℕ
  | .write _ => Option ℕ
  | _ => Bool

/-- What leaves `main`: `OSError`, or what `packb` raises. -/
inductive Raised where
  | os
  | pack
  deriving DecidableEq

abbrev Script (α : Type) : Type := Program Effect Effect.Answer Raised α

/-- A call that raises `OSError` where it fails. -/
def require (effect : Effect) (succeeded : effect.Answer → Bool) : Script Unit :=
  .call effect fun reply => if succeeded reply then .done () else .fail .os

def isfile : Script Bool := .perform Effect.isfile
def readConfig : Script (Option Bytes) := .perform Effect.readConfig
def stat : Script (Option ℕ) := .perform Effect.stat
def unlink : Script Bool := .perform Effect.unlink

/-- `except OSError` around the body. -/
def catchOs (body handler : Script ℕ) : Script ℕ :=
  body.rescue fun
    | .os => handler
    | .pack => .fail .pack

section Main

variable {Object : Type} [DecidableEq Object] (codec : Codec Object)

def enabledKey : Text := "service_plugins_enabled".toList
def pathKey : Text := "command_plugins_path".toList

/-- The two keys the script owns. -/
def updated (config : Dict Object) (pluginsDir : Text) : Dict Object :=
  (config.set (codec.text enabledKey) (codec.bool true)).set (codec.text pathKey)
    (codec.text pluginsDir)

/-- The mode of the existing file, clamped to its owner. -/
def ownerMode (found : Option ℕ) : ℕ :=
  let mode := match found with
    | some mode => mode &&& 0o600
    | none => 0o600
  if mode = 0 then 0o600 else mode

/-- Writing the temporary file and putting it in place. -/
def install (config : Dict Object) (mode : ℕ) : Script Unit := do
  Program.ensuring
    (do
      match codec.packb config with
      | none => .fail .pack
      | some blob => require (.write blob) Option.isSome
      require .fsync id)
    (require .close id)
  require (.chmod mode) id
  require .replace id
  require .openDirectory id
  Program.ensuring (require .fsyncDirectory id) (require .closeDirectory id)

/-- `main` from the two keys on. -/
def enable (pluginsDir : Text) (config : Dict Object) : Script ℕ := do
  let config := updated codec config pluginsDir
  let found ← stat
  let mode := ownerMode found
  require (.openTemp mode) id
  catchOs
    (do
      install codec config mode
      pure 0)
    (do
      let _ ← unlink
      pure 1)

/-- `main`: the exit code. -/
def main (argv : List Text) : Script ℕ :=
  match argv with
  | [_, _, pluginsDir] => do
      require .makeConfigDir id
      require .makePluginsDir id
      if ← isfile then
        match ← readConfig with
        | none => pure 1
        | some raw =>
            match codec.unpackb raw with
            | some (.dict config) => enable codec pluginsDir config
            | some .other => pure 1
            | none => pure 1
      else enable codec pluginsDir []
  | _ => pure 2

end Main

/-! ## The disk -/

/-- The configuration file and the temporary one, and whether the rename has happened. -/
structure Disk where
  config : Option Bytes
  temp : Option Bytes
  renamed : Bool
  deriving DecidableEq

/-- How each system call ends: `false` and `none` for an `OSError`.  `write` is how many
bytes the system takes; `stat` gives the mode of the file. -/
structure Outcomes where
  makeConfigDir : Bool
  makePluginsDir : Bool
  isfile : Bool
  readConfig : Bool
  stat : Option ℕ
  openTemp : Bool
  write : Option ℕ
  fsync : Bool
  close : Bool
  chmod : Bool
  replace : Bool
  openDirectory : Bool
  fsyncDirectory : Bool
  closeDirectory : Bool
  unlink : Bool

/-- The answers to the calls, and what they do to the disk.  The rename is atomic. -/
def Outcomes.answers (outcomes : Outcomes) : (effect : Effect) → Disk → effect.Answer × Disk
  | .makeConfigDir, disk => (outcomes.makeConfigDir, disk)
  | .makePluginsDir, disk => (outcomes.makePluginsDir, disk)
  | .isfile, disk => (outcomes.isfile && disk.config.isSome, disk)
  | .readConfig, disk => (if outcomes.readConfig then disk.config else none, disk)
  | .stat, disk => (outcomes.stat, disk)
  | .openTemp _, disk =>
      (outcomes.openTemp, if outcomes.openTemp then { disk with temp := some [] } else disk)
  | .write blob, disk =>
      match outcomes.write with
      | none => (none, disk)
      | some count =>
          (some (min count blob.length),
            { disk with temp := disk.temp.map (· ++ blob.take count) })
  | .fsync, disk => (outcomes.fsync, disk)
  | .close, disk => (outcomes.close, disk)
  | .chmod _, disk => (outcomes.chmod, disk)
  | .replace, disk =>
      (outcomes.replace,
        if outcomes.replace then ⟨disk.temp, none, true⟩ else disk)
  | .openDirectory, disk => (outcomes.openDirectory, disk)
  | .fsyncDirectory, disk => (outcomes.fsyncDirectory, disk)
  | .closeDirectory, disk => (outcomes.closeDirectory, disk)
  | .unlink, disk =>
      (outcomes.unlink, if outcomes.unlink then { disk with temp := none } else disk)

end LorahamRns.Sideband
