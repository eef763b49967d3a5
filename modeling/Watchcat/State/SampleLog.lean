import Watchcat.State.EventLogStore

/-!
# A sample event

One event of a failed turn as the event log writes it.
-/

namespace Watchcat

open Watchcat.Core

/-- The bytes of an ASCII text. -/
def asciiBytes (text : String) : Bytes := text.toList.map fun c => UInt8.ofNat c.toNat

/-- A failure of a watched session. -/
def sampleEvent : EngineEvent where
  timestamp := seconds 1789473600
  kind := "failure.detected"
  target := "codex:t1"
  message := "down"
  condition := some "network.timeout"

/-- The event as JSON. -/
def sampleLine : Bytes := asciiBytes
  ("\x7b\"timestamp\":\"2026-09-15T12:00:00Z\",\"kind\":\"failure.detected\"," ++
    "\"target\":\"codex:t1\",\"message\":\"down\",\"condition\":\"network.timeout\"\x7d")

/-- JSON as far as the sample goes. -/
def sampleCodec : Codec EngineEvent where
  encode e := if e = sampleEvent then sampleLine else []
  decode line :=
    if line = sampleLine then .ok sampleEvent else .error (.message "expected value")

/-- A store that retains one event. -/
def sampleStore : EventLogStore := ⟨"/state/events.jsonl", 1⟩

theorem sampleCodec_writes : sampleCodec.Writes sampleEvent where
  line := by decide +kernel
  noReturn := by decide +kernel
  text := by decide +kernel
  decode := by rw [sampleCodec]; simp

end Watchcat
