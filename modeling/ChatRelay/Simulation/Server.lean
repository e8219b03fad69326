import ChatRelay.Rpc.Client

/-!
# A scripted server

A server that answers each request with the next of the replies it was given, and with nothing when
there are none left.
-/

namespace ChatRelay.Simulation

/-- A client with the server it calls. -/
structure ScriptedServer where
  client : Rpc.Client
  replies : List Rpc.Reply
  /-- The requests received, newest first. -/
  received : List Rpc.Request

namespace ScriptedServer

/-- Answers a call. -/
def serve (call : Rpc.Call) (server : ScriptedServer) : Rpc.Answer call × ScriptedServer :=
  let (request, client) := server.client.request call
  match request with
  | none => (none, { server with client })
  | some request =>
    (server.replies.head?,
      { client, replies := server.replies.drop 1, received := request :: server.received })

end ScriptedServer

end ChatRelay.Simulation
