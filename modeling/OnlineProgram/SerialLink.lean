import OnlineProgram.ByteStrings

/-!
# Serial links

The machine at the other end of a serial line takes one byte at a time and may
send bytes back.  Each byte it sends carries the number of idle polls before
it, so that a reader with a timeout can be described.
-/

namespace OnlineProgram.SerialLink

/-- Bytes with the number of idle polls that precede each. -/
abbrev Timeline := List (Nat × UInt8)

structure Peer (σ : Type*) where
  accept : UInt8 → σ → σ × Timeline

variable {σ : Type*}

/-- Send bytes to a peer, and gather what it sends meanwhile. -/
def Peer.receive (peer : Peer σ) : Bytes → σ → σ × Timeline
  | [], state => (state, [])
  | byte :: rest, state =>
      let accepted := peer.accept byte state
      let received := peer.receive rest accepted.1
      (received.1, accepted.2 ++ received.2)

theorem Peer.receive_append (peer : Peer σ) (first second : Bytes) (state : σ) :
    peer.receive (first ++ second) state =
      ((peer.receive second (peer.receive first state).1).1,
        (peer.receive first state).2 ++
          (peer.receive second (peer.receive first state).1).2) := by
  induction first generalizing state with
  | nil => simp [Peer.receive]
  | cons byte first ih => simp [Peer.receive, ih]

/-- The peer takes `line` and answers `reply`, never leaving the line idle for
`timeout` polls before the last byte. -/
def Peer.Replies (peer : Peer σ) (line : Bytes) (timeout : Nat) (reply : Bytes)
    (state final : σ) : Prop :=
  ∃ timeline : Timeline,
    peer.receive line state = (final, timeline) ∧
      timeline.map Prod.snd = reply ∧ ∀ sent ∈ timeline, sent.1 < timeout

/-- The bytes before the line falls idle for `timeout` polls. -/
def burst (timeout : Nat) : Timeline → Bytes
  | [] => []
  | (idle, byte) :: rest => if idle < timeout then byte :: burst timeout rest else []

/-- What is still to come then. -/
def afterBurst (timeout : Nat) : Timeline → Timeline
  | [] => []
  | (idle, byte) :: rest =>
      if idle < timeout then afterBurst timeout rest
      else (idle - timeout, byte) :: rest

theorem burst_of_inTime {timeout : Nat} {timeline : Timeline}
    (inTime : ∀ sent ∈ timeline, sent.1 < timeout) :
    burst timeout timeline = timeline.map Prod.snd ∧ afterBurst timeout timeline = [] := by
  induction timeline with
  | nil => exact ⟨rfl, rfl⟩
  | cons sent timeline ih =>
      obtain ⟨restBurst, restAfter⟩ := ih fun later member => inTime later (by simp [member])
      have first : sent.1 < timeout := inTime sent (by simp)
      simp [burst, afterBurst, first, restBurst, restAfter]

end OnlineProgram.SerialLink
