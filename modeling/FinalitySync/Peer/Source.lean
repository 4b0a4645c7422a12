import FinalitySync.Chain.Fragment
import FinalitySync.Peer.Duration

/-!
Sources: peers and files that answer requests. What a source answers may depend on the request and
on how many came before it.
-/

namespace FinalitySync

structure Source (Request Reply : Type) where
  /-- The answer to a request, given the number of requests before it. -/
  reply : Nat → Request → Reply
  /-- The requests so far, oldest first. -/
  requests : List Request

namespace Source

variable {Request Reply : Type}

/-- A source that was not asked yet. -/
def ofReplies (reply : Nat → Request → Reply) : Source Request Reply := ⟨reply, []⟩

/-- A source that answers from a list, and in another way past its end. -/
def ofList (replies : List Reply) (exhausted : Request → Reply) : Source Request Reply :=
  ofReplies fun position request => (replies[position]?).getD (exhausted request)

def ask (source : Source Request Reply) (request : Request) :
    Reply × Source Request Reply :=
  (source.reply source.requests.length request,
    { source with requests := source.requests ++ [request] })

end Source

/-- What comes of a request for a page: nothing, or a page or a reason for none after a while. -/
inductive PageReply
  | never
  | arrival (delay : Duration) (result : Except String Page)

/-- Asked with the hash of a block for the fragments that follow it. -/
abbrev FragmentSource := Source Hash PageReply

/-- Asked with the hash of a block and its state root for the code of its runtime. -/
abbrev RuntimeSource := Source (Hash × Hash) (Except String Bytes)

end FinalitySync
