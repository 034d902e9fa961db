import Mathlib

/-!
# Building the SpiBus

`SpiBus.__init__` decides from the controller's `cs-gpios` property who drives the chip
select.  The property is read in triplets of four-byte words; its size is looked at once
more, and only on the way to a chip select of our own.
-/

namespace LorahamRns.Spi

/-! ## The constructor -/

/-- Why the constructor raises `SpiBusError`. -/
inductive Refusal where
  | lockUnusable
  | notSpidevPath
  | unsupportedLayout (pins : List ℕ)
  | csNotKernels (pin : ℕ)
  | noCsFailed
  | lineNotHeld
  | layoutUnreadable
  | chipSelectsDeclared (count : ℕ)
  deriving DecidableEq

/-- What the constructor raises: an `SpiBusError`, or what `spidev` and `gpiod` raise when
the device cannot be opened or the line cannot be requested. -/
inductive InitError where
  | spiBus (reason : Refusal)
  | system
  deriving DecidableEq

/-- `no_cs_mode`. -/
inductive NoCsMode where
  | kernelCs
  | spiNoCs
  | gpioClaim
  deriving DecidableEq

/-- The opened device and how the chip select is driven. -/
structure SpiBus where
  bus : ℕ
  dev : ℕ
  mode : NoCsMode
  deriving DecidableEq

/-- Setting `SPI_NO_CS`: taken, with the value read back, refused with `EINVAL`, `ENOTTY`
or `EOPNOTSUPP`, or refused otherwise. -/
inductive NoCsReply where
  | taken (readBack : Bool)
  | unsupported
  | failed
  deriving DecidableEq

/-- What the constructor meets.  `csGpios` is the content of the controller's property;
`readable` and `statable` tell whether its two looks at it succeed. -/
structure Host where
  lockOpens : Bool
  csGpios : List UInt8
  readable : Bool
  statable : Bool
  opens : ℕ → ℕ → Bool
  claims : Bool
  setNoCs : NoCsReply
  holdsLine : Bool

/-- `(CE0, CE1)`. -/
def kernelCs : List ℕ := [8, 7]

/-- `int.from_bytes(word, "big")`. -/
def bigEndian (word : List UInt8) : ℕ := word.foldl (fun value byte => value * 256 + byte.toNat) 0

/-- The second word of every whole triplet. -/
def tripletPins (raw : List UInt8) : List ℕ :=
  (List.range (raw.length / 12)).map fun place => bigEndian ((raw.drop (12 * place + 4)).take 4)

/-- `_controller_cs_pins`. -/
def Host.controllerCsPins (host : Host) : List ℕ :=
  if host.readable then tripletPins host.csGpios else []

def parseNumber (text : List Char) : Option ℕ :=
  if text = [] ∨ !text.all Char.isDigit then none else some (Nat.ofDigitChars 10 text 0)

def spidevPrefix : List Char := "spidev".toList

/-- `_parse`: bus and device of a `spidev` path. -/
def parsePath (path : List Char) : Option (ℕ × ℕ) := do
  let base := (path.reverse.takeWhile (· ≠ '/')).reverse
  if !spidevPrefix.isPrefixOf base ∨ '.' ∉ base then none
  else
    let numbers := base.drop spidevPrefix.length
    let bus ← parseNumber (numbers.takeWhile (· ≠ '.'))
    let dev ← parseNumber (numbers.dropWhile (· ≠ '.')).tail
    some (bus, dev)

/-- `_assert_no_kernel_cs_pins`. -/
def Host.assertNoKernelCsPins (host : Host) : Except InitError Unit :=
  if !host.statable then .error (.spiBus .layoutUnreadable)
  else if host.csGpios.length ≠ 0 then
    .error (.spiBus (.chipSelectsDeclared (host.csGpios.length / 12)))
  else .ok ()

/-- `_enforce_no_kernel_cs`. -/
def Host.enforceNoKernelCs (host : Host) : Except InitError NoCsMode :=
  if host.setNoCs = .taken true then .ok .spiNoCs
  else if host.setNoCs = .failed then .error (.spiBus .noCsFailed)
  else if !host.holdsLine then .error (.spiBus .lineNotHeld)
  else do
    host.assertNoKernelCsPins
    pure .gpioClaim

/-- The branch with chip selects of the kernel. -/
def Host.withKernelCs (host : Host) (pins : List ℕ) (bus csPin : ℕ) : Except InitError SpiBus :=
  if pins ≠ kernelCs then .error (.spiBus (.unsupportedLayout pins))
  else if csPin ∉ kernelCs then .error (.spiBus (.csNotKernels csPin))
  else if !host.opens bus (kernelCs.idxOf csPin) then .error .system
  else .ok ⟨bus, kernelCs.idxOf csPin, .kernelCs⟩

/-- The branch with a chip select of our own. -/
def Host.withSoftCs (host : Host) (bus dev : ℕ) : Except InitError SpiBus :=
  if !host.opens bus dev then .error .system
  else if !host.claims then .error .system
  else do
    let mode ← host.enforceNoKernelCs
    pure ⟨bus, dev, mode⟩

/-- `SpiBus.__init__`. -/
def Host.spiBus (host : Host) (path : List Char) (csPin : ℕ) : Except InitError SpiBus :=
  if !host.lockOpens then .error (.spiBus .lockUnusable)
  else match parsePath path with
    | none => .error (.spiBus .notSpidevPath)
    | some (bus, dev) =>
        if host.controllerCsPins ≠ [] then host.withKernelCs host.controllerCsPins bus csPin
        else host.withSoftCs bus dev

/-! ## Layouts -/

/-- Four bytes. -/
def Word : Type := { bytes : List UInt8 // bytes.length = 4 }

/-- Phandle, pin and flags. -/
def triplet (phandle : Word) (pin : UInt8) (flags : Word) : List UInt8 :=
  phandle.val ++ [0, 0, 0, pin] ++ flags.val

/-- Exactly the two triplets for GPIO 8 and 7. -/
def TwoTriplets (content : List UInt8) : Prop :=
  ∃ firstHandle firstFlags lastHandle lastFlags,
    content = triplet firstHandle 8 firstFlags ++ triplet lastHandle 7 lastFlags

theorem triplet_length (phandle : Word) (pin : UInt8) (flags : Word) :
    (triplet phandle pin flags).length = 12 := by
  simp [triplet, phandle.property, flags.property]

theorem TwoTriplets.length {content : List UInt8} (two : TwoTriplets content) :
    content.length = 24 := by
  obtain ⟨a, b, c, d, rfl⟩ := two
  rw [List.length_append, triplet_length, triplet_length]

section

variable {host : Host} {path : List Char} {csPin bus dev : ℕ}

end

end LorahamRns.Spi
