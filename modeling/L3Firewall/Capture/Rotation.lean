/- Capture/Rotation
   source: internal/capture/capture.go
   digest: The pcap writer: packets into rotating files, and cleanup of the directory. -/

import L3Firewall.Filepath.Lexical
import L3Firewall.Foundation.FiniteMap
import L3Firewall.Packet.Parser
import Mathlib.Data.Char
import Mathlib.Data.List.Lex
import Mathlib.Data.List.Sort

set_option autoImplicit false
set_option relaxedAutoImplicit false

namespace L3Firewall.Capture.Rotation

open Filepath.Lexical (Join)
open Foundation.FiniteMap (RangeOrder)
open Packet.Parser (Bytes)

/-- The name of a directory entry, byte by byte. Every path the writer builds is its
directory joined with such a name, so paths compare as the names do. -/
abbrev Name := List Char

def maxPacketSize : Nat := 65536

/-- How many directory entries a rotation looks at. -/
def maxCleanupEntries : Nat := 4096

/-- A decimal number, padded with zeros to five digits. -/
def padded (n : Nat) : List Char :=
  List.replicate (5 - (Nat.toDigits 10 n).length) '0' ++ Nat.toDigits 10 n

def rotationName (n : Nat) : Name := "blocked_".toList ++ padded n ++ ".pcap".toList

def isCapture (name : Name) : Bool :=
  "blocked_".toList.isPrefixOf name && ".pcap".toList.isSuffixOf name

structure Directory where
  names : List Name
  nodup : names.Nodup

/-- Opening with O_CREATE adds an entry that is not there. -/
def Directory.create (d : Directory) (name : Name) : Directory where
  names := d.names.insert name
  nodup := d.nodup.insert

def Directory.remove (d : Directory) (name : Name) : Directory where
  names := d.names.erase name
  nodup := d.nodup.erase name

structure Config where
  dir : String
  maxFiles : Int
  maxPackets : Int

/-- An open rotation file, with what was written through this handle. -/
structure OpenFile where
  name : Name
  packets : List Bytes

/-- Limits are positive: `NewWriter` replaces others by its defaults. -/
structure Writer where
  dir : String
  maxFiles : Nat
  maxPackets : Nat
  keepsFiles : 0 < maxFiles
  takesPackets : 0 < maxPackets
  curFile : Option OpenFile
  curFileN : Nat
  pktCount : Nat
  closed : Bool

/-- A configured limit, or the default for one that is not positive. -/
def limit (configured : Int) (default : Nat) : Nat :=
  if configured ≤ 0 then default else configured.toNat

private theorem limit_pos (configured : Int) {default : Nat} (positive : 0 < default) :
    0 < limit configured default := by
  unfold limit
  split <;> omega

def freshWriter (cfg : Config) : Writer where
  dir := cfg.dir
  maxFiles := limit cfg.maxFiles 10
  maxPackets := limit cfg.maxPackets 10000
  keepsFiles := limit_pos _ (by decide)
  takesPackets := limit_pos _ (by decide)
  curFile := none
  curFileN := 0
  pktCount := 0
  closed := false

/-- What the system answers to `NewWriter`: the errors of MkdirAll and of the check for
symbolic links. -/
structure Startup where
  mkdir : Option String
  symlink : Option String

/-- No writer for an empty directory name. -/
def NewWriter (sys : Startup) (cfg : Config) : Except String (Option Writer) :=
  if cfg.dir = "" then .ok none
  else match sys.mkdir with
    | some err => .error ("creating pcap dir " ++ cfg.dir ++ ": " ++ err)
    | none =>
        match sys.symlink with
        | some err => .error err
        | none => .ok (some (freshWriter cfg))

structure System where
  /-- Error of the check for symbolic links on the directory. -/
  symlink : Option String
  /-- Error of opening the new rotation file. -/
  create : Option String
  /-- Error of writing its header. -/
  header : Option String
  /-- Error of writing the packet. -/
  packet : Option String
  /-- Whether an entry can be removed. -/
  removable : Name → Bool
  /-- The order of the directory listing, if the directory can be opened. -/
  listing : Option (RangeOrder Name)
  /-- The number of names after which reading the directory fails. -/
  readable : Option Nat

inductive WriteError
  | tooLarge (size : Nat)
  | closed
  | directory (err : String)
  | creating (path err : String)
  | header (err : String)
  | packet (err : String)
  deriving DecidableEq

def WriteError.text : WriteError → String
  | .tooLarge size => "packet too large: " ++ Nat.repr size ++ " bytes (max " ++
      Nat.repr maxPacketSize ++ ")"
  | .closed => "pcap writer is closed"
  | .directory err => err
  | .creating path err => "creating pcap file " ++ path ++ ": " ++ err
  | .header err => "writing pcap header: " ++ err
  | .packet err => err

/-- A failed removal leaves the entry in place. -/
def System.remove (sys : System) (d : Directory) (name : Name) : Directory :=
  if sys.removable name then d.remove name else d

/-- At most `maxCleanupEntries` names, in directory order. -/
def System.readdirnames (sys : System) (d : Directory) : Option (List Name) :=
  sys.listing.map fun order =>
    (order.order d.names).take (min maxCleanupEntries (sys.readable.getD maxCleanupEntries))

/-- The removal loop over the sorted matches: so many of them in order, except the
current file. -/
def doomed (current : Name) : Nat → List Name → List Name
  | 0, _ => []
  | _ + 1, [] => []
  | budget + 1, name :: rest =>
      if name = current then doomed current (budget + 1) rest
      else name :: doomed current budget rest

/-- Removal of the file created `maxFiles` rotations ago. -/
def dropIndexed (sys : System) (w : Writer) (d : Directory) : Directory :=
  let oldIdx : Int := w.curFileN - w.maxFiles
  if 1 ≤ oldIdx then sys.remove d (rotationName oldIdx.toNat) else d

/-- Removal of the first matches of a bounded scan. -/
def dropScanned (sys : System) (w : Writer) (d : Directory) : Directory :=
  match sys.readdirnames d with
  | none => d
  | some names =>
      let found := names.filter isCapture
      if found.length ≤ w.maxFiles then d
      else (doomed (rotationName w.curFileN) (found.length - w.maxFiles)
        (found.insertionSort (· ≤ ·))).foldl sys.remove d

def cleanupLocked (sys : System) (w : Writer) (d : Directory) : Directory :=
  dropScanned sys w (dropIndexed sys w d)

/-- The writer once the current file is closed and the index moved on. -/
def Writer.advance (w : Writer) : Writer := { w with curFile := none, curFileN := w.curFileN + 1 }

def Writer.opened (w : Writer) : Writer :=
  { w with curFile := some ⟨rotationName w.curFileN, []⟩, pktCount := 0 }

def rotateLocked (sys : System) (w : Writer) (d : Directory) :
    Option WriteError × Writer × Directory :=
  match sys.symlink with
  | some err => (some (.directory err), w, d)
  | none =>
      let advanced := w.advance
      let fname := rotationName advanced.curFileN
      match sys.create with
      | some err => (some (.creating (String.ofList (Join w.dir.toList fname)) err), advanced, d)
      | none =>
          match sys.header with
          | some err => (some (.header err), advanced, d.create fname)
          | none => (none, advanced.opened, cleanupLocked sys advanced.opened (d.create fname))

/-- A write rotates first when no file is open or the open one is full. -/
def Writer.due (w : Writer) : Bool := w.curFile.isNone || decide (w.maxPackets ≤ w.pktCount)

def Writer.append (w : Writer) (raw : Bytes) : Writer :=
  { w with
    curFile := w.curFile.map fun file => { file with packets := file.packets ++ [raw] }
    pktCount := w.pktCount + 1 }

def writePacket (sys : System) (w : Writer) (d : Directory) (raw : Bytes) :
    Option WriteError × Writer × Directory :=
  match sys.packet with
  | some err => (some (.packet err), w, d)
  | none => (none, w.append raw, d)

def WriteBlock (sys : System) (w : Writer) (d : Directory) (raw : Bytes) :
    Option WriteError × Writer × Directory :=
  if maxPacketSize < raw.length then (some (.tooLarge raw.length), w, d)
  else if w.closed then (some .closed, w, d)
  else if w.due then
    match rotateLocked sys w d with
    | (some err, w', d') => (some err, w', d')
    | (none, w', d') => writePacket sys w' d' raw
  else writePacket sys w d raw

def Writer.rotates (w : Writer) (raw : Bytes) : Bool :=
  decide (raw.length ≤ maxPacketSize) && !w.closed && w.due

def System.grants (sys : System) : Bool :=
  sys.symlink.isNone && sys.create.isNone && sys.header.isNone

def Close (w : Writer) : Writer := { w with closed := true }

end L3Firewall.Capture.Rotation
