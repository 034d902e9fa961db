import LorahamRns.Node.Exposure

/-!
# The listener of this process

`_own_listener` matches the sockets this process holds against the kernel's tables of
TCP sockets.  The address of a row is compared with 127.0.0.1 in the IPv4 table only.
-/

namespace LorahamRns.Node

/-! ## Columns -/

/-- `str.split()`. -/
def words (line : List Char) : List (List Char) :=
  (line.splitOnP isSpace).filter (· ≠ [])

/-- `text.rpartition(":")` without the separator. -/
def rpartitionColon (text : List Char) : List Char × List Char :=
  (((text.reverse.dropWhile (· ≠ ':')).tail).reverse, (text.reverse.takeWhile (· ≠ ':')).reverse)

/-- The columns of a row that are looked at. -/
structure Row where
  address : List Char
  port : List Char
  state : List Char
  inode : List Char
  deriving DecidableEq

/-- A row has at least ten columns. -/
def readRow (line : List Char) : Option Row :=
  match words line with
  | _ :: place :: _ :: state :: _ :: _ :: _ :: _ :: _ :: inode :: _ =>
      let (address, port) := rpartitionColon place
      some ⟨address, port, state, inode⟩
  | _ => none

/-- The rows below the heading; none where the table cannot be read. -/
def tableRows : Option (List Char) → List Row
  | none => []
  | some content => ((fileLines (universalNewlines content)).tail).filterMap readRow

/-! ## The scan -/

/-- `f"{port:04X}"`. -/
def portText (port : ℕ) : List Char :=
  let digits := (Nat.toDigits 16 port).map Char.toUpper
  List.replicate (4 - digits.length) '0' ++ digits

def socketPrefix : List Char := "socket:[".toList

/-- `target[len("socket:["):-1]` of the link of a socket. -/
def socketInode (target : List Char) : Option (List Char) :=
  if socketPrefix.isPrefixOf target then some (target.drop socketPrefix.length).dropLast else none

/-- The inodes behind the links of `/proc/self/fd`; a link may fail to be read. -/
def heldInodes (targets : List (Option (List Char))) : List (List Char) :=
  targets.filterMap fun target => target.bind socketInode

/-- The checks of the loop; `loopback` is the address asked for, if any. -/
def Row.passes (loopback : Option (List Char)) (inodes : List (List Char)) (port : ℕ)
    (row : Row) : Bool :=
  row.state = "0A".toList && row.port = portText port &&
    loopback.all (row.address = ·) && inodes.contains row.inode

def tcpLoopback : List Char := "0100007F".toList

/-- `_own_listener`.  `targets` is missing where the directory cannot be listed, a table
where it cannot be opened. -/
def ownListener (targets : Option (List (Option (List Char)))) (tcp tcp6 : Option (List Char))
    (port : ℕ) : Bool :=
  match targets with
  | none => false
  | some targets =>
      let inodes := heldInodes targets
      if inodes = [] then false
      else
        (tableRows tcp).any (Row.passes (some tcpLoopback) inodes port) ||
          (tableRows tcp6).any (Row.passes none inodes port)

/-! ## What a row says of its socket -/

inductive Family where
  | inet
  | inet6
  deriving DecidableEq

end LorahamRns.Node
