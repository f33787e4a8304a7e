import SyncEngine.Server.Persistence

/-!
# The replay guard

`isReplay` (`server/security/replay-guard.ts`).  Two stores know about used nonces: Redis holds a
key for every nonce that it has registered, for `replayWindowSeconds`, and the operations table
holds the nonce of every stored row for good (`nonceExists` of
`server/persistence/operation-store.ts`, which asks for the nonce in any document).  Redis is
asked first; only when it does not answer the table is read, and only when neither answers the
operation is rejected outright.

A check through Redis registers the nonce as it answers; a check through the table registers
nothing.
-/

namespace SyncEngine

/-- A key `SET … EX … NX` has made: it lives until its expiry. -/
structure NonceKey where
  docId : JSString
  nonce : JSString
  expiresAt : Nat
deriving DecidableEq, Repr

/-- The nonce keys Redis holds. -/
abbrev NonceKeys := List NonceKey

namespace NonceKeys

/-- `redis.exists`: the key has been set and has not expired. -/
def has (keys : NonceKeys) (now : Nat) (docId nonce : JSString) : Bool :=
  keys.any fun key => key.docId = docId && key.nonce = nonce && now < key.expiresAt

/-- `redis.set(key, '1', 'EX', seconds, 'NX')`: reports whether the key was set. -/
def setNX (keys : NonceKeys) (now seconds : Nat) (docId nonce : JSString) : NonceKeys × Bool :=
  if keys.has now docId nonce then (keys, false)
  else (keys ++ [⟨docId, nonce, now + seconds⟩], true)

lemma has_setNX {keys : NonceKeys} {now seconds : Nat} (docId nonce docId' nonce' : JSString)
    (hseconds : 0 < seconds) : (keys.setNX now seconds docId nonce).1.has now docId' nonce' = true ↔
      keys.has now docId' nonce' = true ∨ docId = docId' ∧ nonce = nonce' := by
  rw [setNX]
  split
  · rename_i h
    refine ⟨Or.inl, fun h' => h'.elim id ?_⟩
    rintro ⟨rfl, rfl⟩
    exact h
  · simp only [has, List.any_append, Bool.or_eq_true]
    simp [hseconds]

end NonceKeys

/-- Which of the two stores can be reached. -/
structure Availability where
  redis : Bool
  postgres : Bool
deriving DecidableEq, Repr

/-- Redis answers a check; it refuses an expiry of zero seconds with an error. -/
def Availability.redisAnswers (available : Availability) (seconds : Nat) : Bool :=
  available.redis && 0 < seconds

/-- `nonceExists`, on the nonces of the operations table. -/
def nonceExists (stored : List JSString) (nonce : JSString) : Bool := stored.contains nonce

/-- One check, with nothing in between: the keys afterwards, and whether the operation is taken for
a replay. -/
def isReplay (available : Availability) (seconds now : Nat) (keys : NonceKeys)
    (stored : List JSString) (docId nonce : JSString) : NonceKeys × Bool :=
  if available.redisAnswers seconds then
    let (keys, set) := keys.setNX now seconds docId nonce
    (keys, !set)
  else if available.postgres then (keys, nonceExists stored nonce)
  else (keys, true)

end SyncEngine
