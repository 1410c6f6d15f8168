import Monitor68.Command.Basic
import Monitor68.Command.Report
import Monitor68.Screen.Worker
import Monitor68.Session.Program
import Monitor68.Target.Simulator

/-!
# Performing commands

A command is performed on the files within reach, in a session over a
simulator of the usual memory.  The settings are loaded first, then the
image, and only then are the other words of the command read as addresses
and encodings.  What was printed before a failure stays printed.
-/

namespace Monitor68.Command

open Text Files

/-! ## Addresses and watches -/

/-- The digits of an address behind its mark. -/
def addressDigits : List Char → List Char
  | '0' :: 'x' :: digits => digits
  | '0' :: 'X' :: digits => digits
  | '$' :: digits => digits
  | digits => digits

/-- Read an address in hexadecimal. -/
def readAddress (word : List Char) : Except Failure UInt32 :=
  match Numeral.readWord 16 (addressDigits word) with
  | .ok address => .ok address
  | .error fault =>
    let shown := String.ofList word
    .error { message := s!"Invalid address '{shown}'", causes := [fault.message] }

/-- Read an address with an encoding behind a colon; without a colon the
encoding is that of an unsigned byte. -/
def readWatch (word : String) : Except Failure (UInt32 × Encoding) :=
  let cs := word.toList
  match readAddress (cs.takeWhile (· != ':')) with
  | .error failure => .error failure
  | .ok address =>
    match cs.dropWhile (· != ':') with
    | [] => .ok (address, .unsignedByte)
    | _ :: name =>
      match Encoding.ofName (String.ofList name) with
      | .ok encoding => .ok (address, encoding)
      | .error unknown => .error { message := unknown.message }

def readWatches : List String → Except Failure (List (UInt32 × Encoding))
  | [] => .ok []
  | word :: rest =>
    match readWatch word with
    | .error failure => .error failure
    | .ok w => (readWatches rest).map (w :: ·)

/-! ## Sessions -/

/-- The settings to perform a command under. -/
def loadSettings (files : FileSystem) : Option String → Except Failure Settings
  | none => .ok {}
  | some path =>
    match Settings.load files path with
    | .ok settings => .ok settings
    | .error error =>
      .error { message := "Failed to load config " ++ path
               causes := error.message :: settingsCauses error }

def openSession (files : FileSystem) (settings : Settings) (image : String) :
    Except Failure (Session Simulator) :=
  match (Session.new settings (Simulator.blank Simulator.defaultSize)).load files image with
  | (.ok _, s) => .ok s
  | (.error error, _) => .error ((Failure.ofSession error).within ("Failed to load " ++ image))

/-! ## Lines of output -/

def shownAddress (address : UInt32) : String := "0x" ++ Numeral.addressText address

def breakpointLine (b : Breakpoint) : String :=
  let slot := Numeral.decimal b.slot
  let address := shownAddress b.address
  let mask := Numeral.byteText b.mask.bits
  s!"BP {slot}: {address} (mask 0x{mask})"

/-- The lines about a session with an image just loaded. -/
def loadLines (s : Session Simulator) : List String :=
  let r := Engine.registers s.engine
  ("Entry: " ++ shownAddress r.pc) :: ("Stack: " ++ shownAddress r.sp) ::
    s.breakpoints.list.map breakpointLine

def nameWidth : Nat := 24

/-- The lines about a listing: the source lines by address, and behind an
empty line the symbols, if there are any. -/
def listingLines (l : Listing) : List String :=
  let lines := l.lines.toList.map fun (address, line) =>
    let line := Numeral.decimal line.toNat
    shownAddress address ++ " -> line " ++ line
  let symbols := l.symbols.toList.map fun (name, address) =>
    Numeral.padRight nameWidth name ++ " " ++ shownAddress address
  lines ++ if symbols.isEmpty then [] else "" :: symbols

def variableWidth : Nat := 12

def watchLine (v : Watch) : String :=
  let name := Numeral.padRight variableWidth v.name
  let address := shownAddress v.address
  let label := Numeral.padRight nameWidth v.encoding.label
  let value := v.value
  s!"{name} {address} {label} {value}"

def stepLine (v : View) : String :=
  let pc := shownAddress v.registers.pc
  let flags := v.registers.flags
  let label := v.label
  s!"PC={pc} SR={flags} line {label}"

/-! ## Commands -/

/-- Watch addresses in a session, one after the other. -/
def addWatches (s : Session Simulator) (watches : List (UInt32 × Encoding)) :
    Session Simulator :=
  watches.foldl
    (fun s (address, encoding) => { s with watches := (s.watches.add address none encoding).2 }) s

/-- Execute at most so many steps, behind the lines printed so far in
reverse. -/
def stepsFrom : Nat → Session Simulator → (seen : List String) → Report
  | 0, _, seen => { lines := seen.reverse }
  | count + 1, s, seen =>
    match s.step with
    | (.error error, _) => { lines := seen.reverse, failure := some (.ofSession error) }
    | (.ok view, s) => stepsFrom count s (stepLine view :: seen)

/-- The failure when no frame could be composed: what the status byte is,
or why not even that can be read. -/
def noFrame (e : Simulator) (l : Screen.Layout) : Failure :=
  match Engine.readByte e l.statusAddress with
  | .error error => { message := error.message }
  | .ok status =>
    let shown := Numeral.byteText status
    let ack := if (Screen.Status.ofByte status).ack then "set" else "clear"
    { message := s!"No frame composed (status 0x{shown}, ACK {ack})" }

def screenReport (files : FileSystem) (s : Session Simulator) (l : Screen.Layout)
    (out : String) : Report :=
  let worker : Screen.Worker := { layout := l }
  let tick := worker.tick s.engine { latest := l.plain Screen.idleColor } false
  match tick.published with
  | none => .failed (noFrame s.engine l)
  | some _ =>
    match files.obstacle out with
    | some error =>
      .failed { message := "Failed to write " ++ out, causes := [error.message] }
    | none => { lines := [out], written := some (out, tick.mailbox.latest.toPixelMap) }

/-- Go on with a value unless there was a failure. -/
def orFail {α : Type} (outcome : Except Failure α) (next : α → Report) : Report :=
  match outcome with
  | .error failure => .failed failure
  | .ok value => next value

def performUnder (files : FileSystem) (settings : Settings) : Command → Report
  | .load image => orFail (openSession files settings image) fun s => { lines := loadLines s }
  | .listing file =>
    match Session.readListing files file with
    | .ok l => { lines := listingLines l }
    | .error error =>
      .failed { message := "Failed to read listing " ++ file, causes := [error.message] }
  | .watch image watches =>
    orFail (openSession files settings image) fun s =>
      orFail (readWatches watches) fun watches =>
        let s := (addWatches s watches).refreshWatches
        { lines := s.watches.watches.map watchLine }
  | .dump image address rows =>
    orFail (openSession files settings image) fun s =>
      orFail (readAddress address.toList) fun center =>
        { lines := (s.dump center rows).map DumpRow.render }
  | .step image count listingPath =>
    orFail (openSession files settings image) fun s =>
      let s := match listingPath with
        | some path => (s.attach files path false).2
        | none => s
      stepsFrom count s []
  | .screen image out frameSwap =>
    let layout := { settings.screen with frameSwap := settings.screen.frameSwap || frameSwap }
    orFail (openSession files settings image) fun s => screenReport files s layout out

/-- Perform an invocation on the files within reach. -/
def perform (files : FileSystem) (i : Invocation) : Report :=
  orFail (loadSettings files i.settings) fun settings => performUnder files settings i.command

end Monitor68.Command
