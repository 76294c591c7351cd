import Mathlib.Init

namespace Rendezvous

/-!
# Request and reply over a rendezvous

A client sends a request and then waits for the reply, or sends a notice that
no reply follows.  A server listens, handles what it receives and replies to a
request.  A message is handed over only if the other side is already waiting
for it, otherwise it is lost, and neither side notices.  A request is served
in every run in which no request and no reply is lost, and the first one lost
leaves the client waiting for nothing.
-/

inductive Client where
  | idle
  | sending
  | sent
  | waiting
deriving DecidableEq

/-- Behind a message the server is `handling` a request or `noting` a notice. -/
inductive Server where
  | away
  | listening
  | handling
  | noting
  | replying
deriving DecidableEq

structure Parties where
  client : Client
  server : Server
deriving DecidableEq

inductive Move where
  | work
  | notify
  | ask
  | send
  | await
  | listen
  | handle
  | reply
deriving DecidableEq

/-- What a move does; a message is either delivered or lost. -/
inductive Moves : Move → Parties → Parties → Prop where
  | work (parties : Parties) :
      Moves .work parties parties
  | notifyDelivered :
      Moves .notify ⟨.idle, .listening⟩ ⟨.idle, .noting⟩
  | notifyLost (server : Server) (absent : server ≠ .listening) :
      Moves .notify ⟨.idle, server⟩ ⟨.idle, server⟩
  | ask (server : Server) :
      Moves .ask ⟨.idle, server⟩ ⟨.sending, server⟩
  | sendDelivered :
      Moves .send ⟨.sending, .listening⟩ ⟨.sent, .handling⟩
  | sendLost (server : Server) (absent : server ≠ .listening) :
      Moves .send ⟨.sending, server⟩ ⟨.sent, server⟩
  | await (server : Server) :
      Moves .await ⟨.sent, server⟩ ⟨.waiting, server⟩
  | listen (client : Client) :
      Moves .listen ⟨client, .away⟩ ⟨client, .listening⟩
  | handleRequest (client : Client) :
      Moves .handle ⟨client, .handling⟩ ⟨client, .replying⟩
  | handleNotice (client : Client) :
      Moves .handle ⟨client, .noting⟩ ⟨client, .away⟩
  | replyDelivered :
      Moves .reply ⟨.waiting, .replying⟩ ⟨.idle, .away⟩
  | replyLost (client : Client) (absent : client ≠ .waiting) :
      Moves .reply ⟨client, .replying⟩ ⟨client, .away⟩

/-- The receiver of the request or reply, if the move sends one, waits for it. -/
def Timely : Move → Parties → Prop
  | .send, parties => parties.server = .listening
  | .reply, parties => parties.client = .waiting
  | _, _ => True

/-- The client has sent a request and has no reply yet. -/
def Pending (parties : Parties) : Prop :=
  parties.client = .sent ∨ parties.client = .waiting

/-- The server works on a request. -/
def Working (parties : Parties) : Prop :=
  parties.server = .handling ∨ parties.server = .replying

/-- The server works on a request exactly while the client has one pending. -/
def Paired (parties : Parties) : Prop :=
  Working parties ↔ Pending parties

variable
  {move : Move}
  {first second : Parties}

/-- As long as no request or reply is lost, the two sides keep together. -/
theorem Moves.paired
    (moves : Moves move first second)
    (timely : Timely move first)
    (paired : Paired first) :
    Paired second := by
  cases moves with
  | work parties =>
      exact paired
  | notifyDelivered =>
      simp [Paired, Working, Pending]
  | notifyLost server absent =>
      exact paired
  | ask server =>
      simpa [Paired, Working, Pending] using paired
  | sendDelivered =>
      simp [Paired, Working, Pending]
  | sendLost server absent =>
      exact absurd timely absent
  | await server =>
      simpa [Paired, Working, Pending] using paired
  | listen client =>
      simpa [Paired, Working, Pending] using paired
  | handleRequest client =>
      simpa [Paired, Working, Pending] using paired
  | handleNotice client =>
      simpa [Paired, Working, Pending] using paired
  | replyDelivered =>
      simp [Paired, Working, Pending]
  | replyLost client absent =>
      exact absurd timely absent

/-- The first lost request or reply leaves the client without a server. -/
theorem Moves.stranded
    (moves : Moves move first second)
    (lost : ¬ Timely move first)
    (paired : Paired first) :
    second.client = .sent ∧ ¬ Working second := by
  cases moves with
  | sendLost server absent =>
      refine ⟨rfl, fun working => ?_⟩
      have pending : Pending ⟨.sending, server⟩ := paired.mp working
      simp [Pending] at pending
  | replyLost client absent =>
      have pending : Pending ⟨client, .replying⟩ := paired.mp (Or.inr rfl)
      rcases pending with isSent | waits
      · exact ⟨isSent, by simp [Working]⟩
      · exact absurd waits absent
  | sendDelivered =>
      exact absurd rfl lost
  | replyDelivered =>
      exact absurd rfl lost
  | _ =>
      exact absurd trivial lost

end Rendezvous
