import Wiretap.Program
import Wiretap.Rehearsal.Hosting
import Wiretap.Storage

/-!
# Trials of the program

A trial runs the program on the network of a rehearsal. Clients visit it one
after another, each sending something that it expects back from an echoing
target; then the program is interrupted. A trial without a listener ends with
the failure that the program reports.
-/

set_option autoImplicit false

namespace Wiretap.Rehearsal

structure Trial where
  exit : Nat
  log : List LogLine
  echoed : List Bool
  packets : List Packet
  deriving Inhabited

namespace Trial

def note (s : Scene) (line : LogLine) : Scene := { s with service := s.service.log line }

def shownLog (s : Scene) : List LogLine := s.service.recorder.log.reverse.filter Program.isShown

def visit (k : Nat) (s : Scene) (words : Bytes) : Scene × Bool :=
  let id := ConnectionId.ofNat (Nat.pow 2 64 + s.links.length)
  let (s, joined) := s.join k "" id none
  if !joined then (s, false)
  else
    let (s, heard) := s.talk "" words (some words.length)
    let (s, l) := s.hangUp "" true
    let (s, _) := s.awaitOver l
    (s, match heard with
      | .heard bytes => bytes == words
      | _ => false)

def visits (k : Nat) : Scene → List Bytes → Scene × List Bool
  | s, [] => (s, [])
  | s, words :: rest =>
    let (s, heard) := visit k s words
    let (s, others) := visits k s rest
    (s, heard :: others)

def packetsOf (r : Registry) : List Packet := r.snapshot.flatMap (·.packets)

def finish (s : Scene) (exit : Nat) (echoed : List Bool) : Trial :=
  let (s, _) := s.stop
  let s := note s (Program.summary s.registry)
  ⟨exit, shownLog s, echoed, packetsOf s.registry⟩

def run (n : Network) (d : Draw) (o : Options) (disk : Storage) (taken : Bool)
    (traffic : List Bytes) : Trial :=
  match Program.prepare o disk.read with
  | .error e => ⟨1, Program.importing :: e.log, [], []⟩
  | .ok l =>
    let place : Place := ⟨taken, .ofName "echo" []⟩
    match (Scene.begin n l.service [] ⟨true, []⟩).start d l.session place with
    | (s, .error (.failed e)) =>
      let s := (s.reports.reverse.flatMap Program.reportLines).foldl note s
      ⟨1, shownLog (note s (Program.unstarted e)), [], []⟩
    | (s, .error _) => ⟨101, shownLog s, [], []⟩
    | (s, .ok _) =>
      let (s, listener) := s.listening
      let reports := s.reports.reverse
      let s := (reports.flatMap Program.reportLines).foldl note s
      match Program.fatal? reports with
      | some r => finish (note s (Program.failed r)) 1 []
      | none =>
        let (s, echoed) := listener.elim (s, []) (fun k => visits k s traffic)
        finish (note s Program.interrupted) 0 echoed

def records (t : Trial) : List Packet :=
  let text (p : Packet) : String := String.ofList (Json.object (Program.packetMembers p))
  (t.packets.map (fun p => (text p, p))).mergeSort (fun a b => a.1 ≤ b.1) |>.map (·.2)

def linesOf (message : String) : List String :=
  ((Program.indented message).splitOn "\n").map
    (fun l => if l.endsWith "\r" then (l.dropEnd 1).copy else l)

def shownPackets (t : Trial) : List String :=
  (t.packets.map (fun p => "\n".intercalate (linesOf (Program.packetText p)))).mergeSort
    (· ≤ ·)

def lines (t : Trial) : List String := t.log.flatMap (fun l => linesOf l.text)

def milestones (t : Trial) : List String :=
  (t.log.filter Program.isMilestone).map (·.text)

end Trial
end Wiretap.Rehearsal
