import StructuredText.Proofs.Builder

set_option autoImplicit false

namespace StructuredText

inductive Feeding where
  | feed (text : List Char) (pos : Position)
  | drop

structure Growth where
  builder : Builder := {}
  root : List Statement := []

namespace Growth

def step (growth : Growth) : Feeding → Growth
  | .feed text pos =>
    let outcome := growth.builder.feed growth.root text pos
    ⟨outcome.builder, outcome.root⟩
  | .drop => { growth with builder := growth.builder.dropPending.1 }

def run (growth : Growth) (feedings : List Feeding) : Growth :=
  feedings.foldl step growth

def acceptedIn (growth : Growth) : Feeding → Option CodeLine
  | .feed text pos => growth.builder.accepted growth.root text pos
  | .drop => none

def accepted (growth : Growth) : List Feeding → List CodeLine
  | [] => []
  | feeding :: rest => (growth.acceptedIn feeding).toList ++ (growth.step feeding).accepted rest

def Tracks (growth : Growth) (cursor : Cursor) : Prop :=
  growth.builder.Tracks growth.root cursor

theorem tracks_step {growth : Growth} {cursor : Cursor} (tracks : growth.Tracks cursor)
    (feeding : Feeding) :
    ∃ after, (growth.step feeding).Tracks after ∧
      after.lines = cursor.lines ++ (growth.acceptedIn feeding).toList := by
  cases feeding with
  | feed text pos => exact Builder.Tracks.feed_written tracks text pos
  | drop => exact ⟨cursor, Builder.Tracks.of_frames tracks rfl, by simp [acceptedIn]⟩

theorem tracks_run {growth : Growth} {cursor : Cursor} (tracks : growth.Tracks cursor)
    (feedings : List Feeding) :
    ∃ after, (growth.run feedings).Tracks after ∧
      after.lines = cursor.lines ++ growth.accepted feedings := by
  induction feedings generalizing growth cursor with
  | nil => exact ⟨cursor, tracks, by simp [accepted]⟩
  | cons feeding rest ih =>
    obtain ⟨next, nextTracks, nextLines⟩ := tracks_step tracks feeding
    obtain ⟨after, afterTracks, afterLines⟩ := ih nextTracks
    exact ⟨after, afterTracks, by simp [afterLines, nextLines, accepted]⟩

theorem openLines_run (feedings : List Feeding) :
    let growth := run {} feedings
    Resolves growth.builder.frames growth.root ∧
      openLines growth.builder.path growth.root = accepted {} feedings := by
  have fresh : Tracks {} {} := Builder.Tracks.fresh []
  obtain ⟨cursor, tracks, lines⟩ := tracks_run fresh feedings
  refine ⟨tracks.resolves, ?_⟩
  rw [tracks.path, tracks.root, cursor.openLines_root, lines]
  simp [Cursor.lines, openLines]

end Growth

end StructuredText
