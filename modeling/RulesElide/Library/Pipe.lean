import Mathlib

/-!
# A server behind two pipes

A server reads the messages of one pipe in their order and writes replies to another one: at
most one reply to each message that it has read, in the same order.  Messages may stay without
a reply.  Each reply is kept next to the message that it answers, which its reader does not see.

A client that sends a message while nothing is in flight receives a reply to that message, if
it receives one, and then again nothing is in flight (`eq_of_idle`).
-/

universe u v

/-- The two pipes of a server. -/
structure Pipe (Message : Type u) (Reply : Type v) where
  /-- Sent, and not yet read by the server. -/
  unread : List Message := []
  /-- Read, and not yet answered. -/
  pending : List Message := []
  /-- Answered, and not yet received by the client. -/
  replies : List (Message × Reply) := []

namespace Pipe

variable {Message : Type u} {Reply : Type v} {pipe after : Pipe Message Reply}

/-- What the server does. -/
inductive Step : Pipe Message Reply → Pipe Message Reply → Prop
  | read {message : Message} {unread pending : List Message} {replies : List (Message × Reply)} :
      Step ⟨message :: unread, pending, replies⟩ ⟨unread, pending ++ [message], replies⟩
  | reply {message : Message} {reply : Reply} {unread skipped pending : List Message}
      {replies : List (Message × Reply)} :
      Step ⟨unread, skipped ++ message :: pending, replies⟩
        ⟨unread, pending, replies ++ [(message, reply)]⟩

/-- Any number of steps of the server. -/
def Serves : Pipe Message Reply → Pipe Message Reply → Prop :=
  Relation.ReflTransGen Step

/-- The client sends a message. -/
def send (pipe : Pipe Message Reply) (message : Message) : Pipe Message Reply :=
  { pipe with unread := pipe.unread ++ [message] }

/-- The messages whose replies may still come, in order. -/
def inFlight (pipe : Pipe Message Reply) : List Message :=
  pipe.replies.map Prod.fst ++ pipe.pending ++ pipe.unread

/-- No reply is still to come. -/
def Idle (pipe : Pipe Message Reply) : Prop :=
  pipe.inFlight = []

theorem idle_new : Idle ({} : Pipe Message Reply) := rfl

theorem inFlight_send (pipe : Pipe Message Reply) (message : Message) :
    (pipe.send message).inFlight = pipe.inFlight ++ [message] := by
  simp [send, inFlight]

/-- The server neither repeats nor reorders. -/
theorem Step.inFlight_sublist (h : Step pipe after) : after.inFlight.Sublist pipe.inFlight := by
  cases h with
  | read => simp [inFlight]
  | reply => simp [inFlight]

theorem Serves.inFlight_sublist (h : Serves pipe after) : after.inFlight.Sublist pipe.inFlight := by
  induction h with
  | refl => exact List.Sublist.refl _
  | tail _ hstep ih => exact hstep.inFlight_sublist.trans ih

theorem Idle.serves (hidle : pipe.Idle) (h : Serves pipe after) : after.Idle := by
  have hsublist := h.inFlight_sublist
  rw [hidle] at hsublist
  exact List.sublist_nil.mp hsublist

/-- Of one message in flight at most, the reply is to that one, and nothing is left. -/
theorem eq_of_inFlight {message answered : Message} {reply : Reply} {rest : List (Message × Reply)}
    (h : pipe.inFlight.Sublist [message]) (hreply : pipe.replies = (answered, reply) :: rest) :
    answered = message ∧ Idle { pipe with replies := rest } := by
  rw [inFlight, hreply, List.map_cons, List.cons_append, List.cons_append] at h
  have hequal := h.eq_of_length_le (by simp)
  exact ⟨(List.cons.inj hequal).1, (List.cons.inj hequal).2⟩

/-- **One reply.**  What is received after a message was sent to an idle server answers that
message, and then the server is idle again. -/
theorem eq_of_idle {message answered : Message} {reply : Reply} {rest : List (Message × Reply)}
    (hidle : pipe.Idle) (h : Serves (pipe.send message) after)
    (hreply : after.replies = (answered, reply) :: rest) :
    answered = message ∧ Idle { after with replies := rest } := by
  have hsublist := h.inFlight_sublist
  rw [inFlight_send, hidle, List.nil_append] at hsublist
  exact eq_of_inFlight hsublist hreply

end Pipe
