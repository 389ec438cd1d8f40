import Holdem.LogPrompts
import Holdem.Lib.Runs

set_option autoImplicit false

namespace Holdem

/-- The log viewer and the files it reads. `readSoFar` is the content of the current file as
the last load or refresh found it, and `acquainted` tells that players were known when the file was
loaded; the viewer reads neither. -/
structure Viewer (Stamp : Type) where
  parser : LogParser Stamp
  currentFile : Option String
  files : String → Option (List Char)
  readSoFar : List Char
  acquainted : Bool

/-- The game appends lines to a file, the user loads one, or the refresh thread takes a turn. -/
inductive ViewerEvent
  | append (path : String) (lines : List (List Char))
  | loadLogFile (path : String)
  | refresh

def Viewer.start (Stamp : Type) : Viewer Stamp := ⟨{}, none, fun _ => none, [], false⟩

def fileText (lines : List (List Char)) : List Char := lines.flatMap fun line => line ++ ['\n']

/-- One event. Where the parser raises, what it had done until then stays; `parse_file` clears
the events before it fails to open a file. -/
def viewerStep {Stamp : Type} (lib : PyLib Stamp) (viewer : Viewer Stamp) :
    ViewerEvent → Option (Viewer Stamp)
  | .append path lines =>
      some { viewer with
        files := fun other =>
          if other = path then some ((viewer.files path).getD [] ++ fileText lines)
          else viewer.files other }
  | .loadLogFile path =>
      some { viewer with
        parser :=
          match viewer.files path with
          | none => { viewer.parser with events := [], currentHand := none }
          | some content => (lib.parseFile viewer.parser content).1
        currentFile := some path
        readSoFar := (viewer.files path).getD []
        acquainted := !viewer.parser.gameState.players.isEmpty }
  | .refresh =>
      match viewer.currentFile with
      | none => none
      | some path =>
          some { viewer with
            parser := (lib.parseNewLines viewer.parser (viewer.files path)).1
            readSoFar := (viewer.files path).getD viewer.readSoFar }

/-- A load of a file whose prompts do not depend on players known from another one, or a refresh
that goes on reading where the last read of the file ended, does not find the rest of a prompt
there, and reads no prompt that depends on such players. -/
def alignedStep {Stamp : Type} (lib : PyLib Stamp) (viewer : Viewer Stamp)
    (event : ViewerEvent) : Bool :=
  match event with
  | .append _ _ => true
  | .loadLogFile path =>
      viewer.parser.gameState.players.isEmpty ||
        lib.evenhandedLines (Text.readLines ((viewer.files path).getD []))
  | .refresh =>
      match viewer.currentFile.bind viewer.files with
      | none => true
      | some content =>
          let unread := Text.readLines (content.drop viewer.readSoFar.length)
          decide (viewer.parser.lastFilePosition = Text.byteSize viewer.readSoFar) &&
            (!lib.unfinished (Text.readLines viewer.readSoFar) || lib.opensWithStamp unread) &&
            (!viewer.acquainted || lib.evenhandedLines unread)

def PyLib.freshParse {Stamp : Type} (lib : PyLib Stamp) (content : List Char) :
    ParsedLines Stamp :=
  lib.parseLines none {} (Text.readLines content)

/-- What the viewer keeps while every load and refresh is aligned. -/
structure Tailed {Stamp : Type} (lib : PyLib Stamp) (viewer : Viewer Stamp) : Prop where
  whole : ∀ path, Text.Whole ((viewer.files path).getD [])
  wholeRead : Text.Whole viewer.readSoFar
  grown : ∀ path, viewer.currentFile = some path →
    ∃ unread, (viewer.files path).getD [] = viewer.readSoFar ++ unread
  parsed : (lib.freshParse viewer.readSoFar).raised = none →
    viewer.parser.events = (lib.freshParse viewer.readSoFar).events ∧
      viewer.parser.currentHand = (lib.freshParse viewer.readSoFar).currentHand ∧
      (viewer.acquainted = false →
        viewer.parser.gameState.players = (lib.freshParse viewer.readSoFar).gameState.players)

theorem fileText_whole (lines : List (List Char)) : Text.Whole (fileText lines) := by
  induction lines with
  | nil => exact Or.inl rfl
  | cons line rest ih =>
      have first : Text.Whole (line ++ ['\n']) := Or.inr (List.getLast?_concat ..)
      exact first.append ih

namespace Tailed

variable {Stamp : Type} {lib : PyLib Stamp} {viewer next : Viewer Stamp}

theorem initial (lib : PyLib Stamp) : Tailed lib (Viewer.start Stamp) := by
  refine ⟨fun _ => Or.inl rfl, Or.inl rfl, ?_, fun _ => ⟨rfl, rfl, fun _ => rfl⟩⟩
  intro path current
  cases current

theorem append (tailed : Tailed lib viewer) (path : String) (lines : List (List Char))
    (taken : viewerStep lib viewer (.append path lines) = some next) : Tailed lib next := by
  cases taken
  refine ⟨?_, tailed.wholeRead, ?_, tailed.parsed⟩
  · intro other
    dsimp only
    split
    · exact (tailed.whole path).append (fileText_whole lines)
    · exact tailed.whole other
  · intro other current
    obtain ⟨unread, content⟩ := tailed.grown other current
    dsimp only
    split
    · rename_i same
      rw [same] at content
      refine ⟨unread ++ fileText lines, ?_⟩
      rw [Option.getD_some, content, List.append_assoc]
    · exact ⟨unread, content⟩

theorem load (tailed : Tailed lib viewer) (path : String)
    (aligned : alignedStep lib viewer (.loadLogFile path) = true)
    (taken : viewerStep lib viewer (.loadLogFile path) = some next) : Tailed lib next := by
  cases taken
  refine ⟨tailed.whole, tailed.whole path, ?_, ?_⟩
  · intro other current
    cases current
    exact ⟨[], (List.append_nil _).symm⟩
  · intro returns
    have unmet : (!viewer.parser.gameState.players.isEmpty) = false →
        viewer.parser.gameState.players = [] := by simp
    rw [alignedStep, Bool.or_eq_true, List.isEmpty_iff] at aligned
    dsimp only at returns ⊢
    cases file : viewer.files path with
    | none => exact ⟨rfl, rfl, unmet⟩
    | some content =>
        rw [file] at aligned
        obtain ⟨events, hand, -, players⟩ :=
          @PyLib.parseLines_agree _ lib viewer.parser.gameState {} none _ aligned
        exact ⟨events, hand, fun unknown => players (unmet unknown)⟩

theorem refresh (tailed : Tailed lib viewer) (aligned : alignedStep lib viewer .refresh = true)
    (taken : viewerStep lib viewer .refresh = some next) : Tailed lib next := by
  unfold viewerStep at taken
  cases current : viewer.currentFile with
  | none =>
      rw [current] at taken
      cases taken
  | some path =>
      rw [current] at taken
      cases taken
      cases file : viewer.files path with
      | none => exact ⟨tailed.whole, tailed.wholeRead, current ▸ tailed.grown, tailed.parsed⟩
      | some content =>
          obtain ⟨unread, grown⟩ := tailed.grown path current
          have ends := tailed.whole path
          rw [file, Option.getD_some] at grown ends
          simp only [alignedStep, current, file, Option.bind_some, Bool.and_eq_true,
            decide_eq_true_eq, Bool.or_eq_true, Bool.not_eq_true', grown,
            List.drop_left] at aligned
          obtain ⟨⟨position, closed⟩, evenhanded⟩ := aligned
          refine ⟨tailed.whole, ends, ?_, ?_⟩
          · intro other same
            cases same
            exact ⟨[], by simp [file]⟩
          · intro returns
            simp only [Option.getD_some, PyLib.freshParse, grown,
              Text.readLines_append tailed.wholeRead] at returns ⊢
            obtain ⟨before, split⟩ := PyLib.parseLines_append closed returns
            obtain ⟨events, hand, players⟩ := tailed.parsed before
            unfold PyLib.freshParse at events hand players
            obtain ⟨newEvents, newHand, -, newPlayers⟩ :=
              PyLib.parseLines_agree viewer.parser.currentHand _ (evenhanded.imp_left players)
            rw [split]
            unfold PyLib.parseNewLines
            simp only [position, Text.seek_append]
            rw [← hand]
            exact ⟨by rw [events, newEvents], newHand, fun unknown => newPlayers (players unknown)⟩

theorem step (tailed : Tailed lib viewer) {event : ViewerEvent}
    (aligned : alignedStep lib viewer event = true)
    (taken : viewerStep lib viewer event = some next) : Tailed lib next := by
  cases event with
  | append path lines => exact tailed.append path lines taken
  | loadLogFile path => exact tailed.load path aligned taken
  | refresh => exact tailed.refresh aligned taken

end Tailed

/-- However the files grow, are loaded and refreshed: as long as the refreshes go on where the last
read ended and outside of a prompt, and no prompt depends on the players of another file, the
parser has the events that a fresh parser returns for the content read so far. -/
theorem tail_equals_batch {Stamp : Type} (lib : PyLib Stamp) (events : List ViewerEvent)
    (viewer : Viewer Stamp)
    (reached : Runs.run (viewerStep lib) (Viewer.start Stamp) events = some viewer)
    (aligned : Runs.meets (viewerStep lib) (alignedStep lib) (Viewer.start Stamp) events = true)
    (fresh : List (LogEvent Stamp))
    (returned : (lib.parseFile {} viewer.readSoFar).2 = .ok fresh) :
    viewer.parser.events = fresh := by
  have tailed : Tailed lib viewer :=
    Runs.run_invariant (Tailed lib) (fun _ _ _ holds allowed taken => holds.step allowed taken)
      (Tailed.initial lib) aligned reached
  have parsed := tailed.parsed
  simp only [PyLib.parseFile, ParsedLines.returned] at returned
  split at returned
  · rename_i returns
    rw [(parsed returns).1]
    exact Except.ok.inj returned
  · cases returned

def handLine : List Char :=
  "2024-01-01 12:00:00,000 - poker_game - INFO - === STARTING NEW HAND #1 ===".toList

def handEvent : LogEvent (List Char) :=
  .handStart "2024-01-01 12:00:00,000".toList 1 "=== STARTING NEW HAND #1 ===".toList

/-- A file loaded while it is empty is tailed as it grows. -/
theorem tail_equals_batch_empty :
    ∃ viewer, Runs.run (viewerStep asciiLib) (Viewer.start _)
        [.append "game.log" [], .loadLogFile "game.log", .append "game.log" [handLine],
          .refresh] = some viewer ∧
      (asciiLib.parseFile {} viewer.readSoFar).2 = .ok [handEvent] ∧
      viewer.parser.events = [handEvent] := by
  have reached : ∃ viewer, Runs.run (viewerStep asciiLib) (Viewer.start _)
      [.append "game.log" [], .loadLogFile "game.log", .append "game.log" [handLine],
        .refresh] = some viewer ∧
      (asciiLib.parseFile {} viewer.readSoFar).2 = .ok [handEvent] := ⟨_, rfl, by decide⟩
  obtain ⟨viewer, ran, returned⟩ := reached
  exact ⟨viewer, ran, returned,
    tail_equals_batch asciiLib _ viewer ran (by decide) _ returned⟩

/-- A file loaded with one hand in it: the first refresh reads the hand once more. -/
theorem loaded_hand_read_twice :
    ∃ viewer, Runs.run (viewerStep asciiLib) (Viewer.start _)
        [.append "game.log" [handLine], .loadLogFile "game.log", .refresh] = some viewer ∧
      (asciiLib.parseFile {} viewer.readSoFar).2 = .ok [handEvent] ∧
      viewer.parser.events = [handEvent, handEvent] :=
  ⟨_, rfl, by decide, by decide⟩

end Holdem
