import LorahamRns.Node.Address

/-!
# Where client access is bound

`_unsafe_exposure` scans the configuration for `listen_ip` and remembers the last
value it saw.  Earlier values leave no trace in its verdict.
-/

namespace LorahamRns.Node

/-- `str.isspace` of one character. -/
def isSpace (character : Char) : Bool :=
  character.toNat ∈ [0x20, 0x85, 0xA0, 0x1680, 0x2028, 0x2029, 0x202F, 0x205F, 0x3000] ∨
    9 ≤ character.toNat ∧ character.toNat ≤ 13 ∨
    0x1C ≤ character.toNat ∧ character.toNat ≤ 0x1F ∨
    0x2000 ≤ character.toNat ∧ character.toNat ≤ 0x200A

/-- `str.strip` of the characters with a property. -/
def strip (drops : Char → Bool) (text : List Char) : List Char :=
  (text.dropWhile drops).rdropWhile drops

/-- Text mode reads every line end as a newline. -/
def universalNewlines : List Char → List Char
  | '\r' :: '\n' :: rest => '\n' :: universalNewlines rest
  | '\r' :: rest => '\n' :: universalNewlines rest
  | character :: rest => character :: universalNewlines rest
  | [] => []

/-- The lines of a text, each with its newline. -/
def fileLines : List Char → List (List Char)
  | [] => []
  | character :: rest =>
      if character = '\n' then [character] :: fileLines rest
      else match fileLines rest with
        | [] => [[character]]
        | line :: lines => (character :: line) :: lines

/-- `line.partition("=")` without the separator. -/
def partitionEquals (line : List Char) : List Char × List Char :=
  (line.takeWhile (· ≠ '='), (line.dropWhile (· ≠ '=')).tail)

/-- The value a line gives `listen_ip`, if it sets it. -/
def listenIp (line : List Char) : Option (List Char) :=
  let (key, value) := partitionEquals line
  if strip isSpace key = "listen_ip".toList then some (strip (· = '"') (strip isSpace value))
  else none

/-- The loop over the lines: the value of the last line that sets `listen_ip`. -/
def lastListenIp (lines : List (List Char)) : List Char :=
  lines.foldl (fun listen line => (listenIp line).getD listen) []

/-- The bind stays on this machine: a loopback address or exactly `localhost`. -/
def loopbackBind (mapped : Bool) (listen : List Char) : Bool :=
  match ipAddress listen with
  | some address => address.isLoopback mapped
  | none => listen = "localhost".toList

def exposureMessage (listen : List Char) : List Char :=
  "client access is bound to ".toList ++ listen ++
    (" — this release binds RNS client access to loopback only, because it has no " ++
      "authentication of its own and an allow-list is not enforcement. Bind 127.0.0.1 " ++
      "and reach it over SSH.").toList

/-- `_unsafe_exposure`: the message to refuse with, empty when there is nothing to
refuse.  `none` stands for a configuration that cannot be opened. -/
def unsafeExposure (mapped : Bool) : Option (List Char) → List Char
  | none => []
  | some text =>
      let listen := lastListenIp (fileLines (universalNewlines text))
      if listen = [] ∨ loopbackBind mapped listen then [] else exposureMessage listen

/-! ## What the scan decides -/

/-- The values the lines of a text give `listen_ip`, in order. -/
def listenIps (text : List Char) : List (List Char) :=
  (fileLines (universalNewlines text)).filterMap listenIp

/-- Some line binds client access off this machine. -/
def Exposes (mapped : Bool) (text : List Char) : Prop :=
  ∃ listen ∈ listenIps text, loopbackBind mapped listen = false

/-- The last line that sets `listen_ip` gives a value, and that value exposes. -/
def LastExposes (mapped : Bool) (text : List Char) : Prop :=
  ∃ listen, (listenIps text).getLast? = some listen ∧ listen ≠ [] ∧
    loopbackBind mapped listen = false

/-- The loop keeps the last value set. -/
theorem lastListenIp_eq (lines : List (List Char)) :
    lastListenIp lines = (lines.filterMap listenIp).getLast?.getD [] := by
  unfold lastListenIp
  induction lines using List.reverseRecOn with
  | nil => rfl
  | append_singleton lines line ih =>
      rw [List.foldl_append, List.filterMap_append, ih]
      cases h : listenIp line with
      | none => simp [h]
      | some value => simp [h]

theorem exposureMessage_ne_nil (listen : List Char) : exposureMessage listen ≠ [] := by
  have text : "client access is bound to ".toList ≠ [] := by decide
  exact List.append_ne_nil_of_left_ne_nil (List.append_ne_nil_of_left_ne_nil text _) _

/-- The scan refuses exactly when the last value exposes. -/
theorem unsafeExposure_ne_nil_iff (mapped : Bool) (text : List Char) :
    unsafeExposure mapped (some text) ≠ [] ↔ LastExposes mapped text := by
  have last : lastListenIp (fileLines (universalNewlines text)) =
      (listenIps text).getLast?.getD [] := lastListenIp_eq _
  simp only [unsafeExposure, last]
  cases h : (listenIps text).getLast? with
  | none => simp [LastExposes, h]
  | some listen =>
      have iff : LastExposes mapped text ↔ listen ≠ [] ∧ loopbackBind mapped listen = false := by
        simp [LastExposes, h]
      rw [iff, Option.getD_some]
      split
      · next safe => rcases safe with rfl | safe <;> simp [*]
      · next exposed =>
          push Not at exposed
          exact ⟨fun _ => ⟨exposed.1, by simpa using exposed.2⟩,
            fun _ => exposureMessage_ne_nil listen⟩

end LorahamRns.Node
