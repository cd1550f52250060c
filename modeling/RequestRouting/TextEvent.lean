import RequestRouting.Script

/-!
# Text events

The simplest events: a text that is its own path.
-/

namespace RequestRouting

/-- An event that consists of its path. -/
structure TextEvent where
  text : String
  deriving DecidableEq, Repr

instance : Scriptable TextEvent where
  path event := event.text
  withPath _ path := ⟨path⟩
  hasHeader _ _ := false
  hasResponse _ := false

/-- The event for diagnostics. -/
def TextEvent.debug (event : TextEvent) : String := Text.quoted event.text

end RequestRouting
