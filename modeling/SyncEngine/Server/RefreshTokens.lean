import Mathlib.Data.List.Nodup
import SyncEngine.Lib.Interleaving
import SyncEngine.Lib.KeyedTable
import SyncEngine.Shared.JsString

/-!
# Refresh tokens

`rotateRefreshToken` and `createRefreshToken` (`server/security/jwt.ts`) over the table
`refresh_tokens`.  Every query and every comparison is awaited, so that calls of any number of
workers interleave there; a call is the stage it has come to (`TokenCall`), and `exec` is what it
does up to its next await.

A rotation looks the token up among those that are not revoked, compares the hashes and then
revokes the row it found, whatever has become of the row since.  Two calls with one token that
both look it up before either revokes it both hand out a new pair.

`refresh_tokens_single_use` is about the runs in which a row that is revoked was not revoked
before.  It is an account for each row: until the row is revoked there is one rotation to come;
revoking it hands this one to the call, which carries it until it returns the pair.
-/

namespace SyncEngine

open Interleaving

/-- `bcryptjs`, as far as it is used: the comparison is right for the token that was hashed, and
for no other. -/
structure Bcrypt (H S : Type*) where
  hash : JSString → S → H
  compare : JSString → H → Bool
  compare_hash : ∀ raw raw' salt, compare raw (hash raw' salt) = true ↔ raw = raw'

/-- A row of `refresh_tokens`. -/
structure RefreshTokenRow (H : Type*) where
  id : JSString
  userId : JSString
  tokenHash : H
  tokenPrefix : JSString
  expiresAt : Nat
  revoked : Bool

/-- A row of `users`. -/
structure TokenUser where
  id : JSString
  email : JSString
  displayName : JSString
deriving DecidableEq

/-- A row that the lookup of `rotateRefreshToken` returns. -/
structure TokenCandidate (H : Type*) where
  id : JSString
  userId : JSString
  tokenHash : H
  email : JSString
  displayName : JSString
deriving DecidableEq

/-- The claims that `signAccessToken` signs. -/
structure AccessToken where
  sub : JSString
  email : JSString
  displayName : JSString

/-- What a login or a refresh returns. -/
structure TokenPair where
  accessToken : AccessToken
  refreshToken : JSString
  expiresIn : Nat

/-- What `rotateRefreshToken` returned, with the id of the row that it was exchanged for. -/
structure Rotation where
  rowId : JSString
  userId : JSString
  tokens : TokenPair

/-- `config.jwt`, in seconds. -/
structure JwtConfig where
  accessExpiry : Nat
  refreshExpiry : Nat

/-- The tables, with all rotations so far. -/
structure TokenStore (H : Type*) where
  users : List TokenUser
  refreshTokens : List (RefreshTokenRow H)
  rotations : List Rotation

/-- `TOKEN_PREFIX_LEN`. -/
def tokenPrefixLen : Nat := 8

/-- A call, at its next await. -/
inductive TokenCall (H : Type*)
  /-- The INSERT of `registerUser`. -/
  | registerUser (user : TokenUser)
  /-- `bcrypt.hash` in `createRefreshToken`, called by a login or by a rotation. -/
  | hash (userId : JSString) (rotated : Option (TokenCandidate H))
  | insert (userId raw : JSString) (hash : H) (expiresAt : Nat)
      (rotated : Option (TokenCandidate H))
  /-- The SELECT of `rotateRefreshToken`. -/
  | select (rawToken : JSString)
  | compare (rawToken : JSString) (row : TokenCandidate H) (rest : List (TokenCandidate H))
  | update (row : TokenCandidate H)
deriving DecidableEq

/-- What a step takes from outside: the time, the UUIDs drawn and the salt. -/
structure TokenDraws (S : Type*) where
  now : Nat
  id : JSString
  raw : JSString
  salt : S

namespace TokenStore

variable {H S : Type*}

/-- The SELECT: the rows with the prefix that are neither revoked nor expired, with their users. -/
def lookUp (s : TokenStore H) (tokenPrefix : JSString) (now : Nat) : List (TokenCandidate H) :=
  (s.refreshTokens.filter fun r =>
    r.tokenPrefix = tokenPrefix ∧ r.revoked = false ∧ now < r.expiresAt).filterMap fun r =>
      (KeyedTable.lookup TokenUser.id r.userId s.users).map fun u =>
        ⟨r.id, r.userId, r.tokenHash, u.email, u.displayName⟩

/-- `UPDATE refresh_tokens SET revoked = true WHERE id = $1`. -/
def revoke (s : TokenStore H) (id : JSString) : TokenStore H :=
  { s with
    refreshTokens := KeyedTable.update RefreshTokenRow.id id (fun r => { r with revoked := true })
      s.refreshTokens }

/-- The INSERT of `createRefreshToken`, refused where it breaks a constraint of the table. -/
def insertToken [DecidableEq H] (s : TokenStore H) (row : RefreshTokenRow H) :
    Option (TokenStore H) :=
  if KeyedTable.hasKey TokenUser.id row.userId s.users = false ∨
      KeyedTable.hasKey RefreshTokenRow.tokenHash row.tokenHash s.refreshTokens then none
  else
    (KeyedTable.insert RefreshTokenRow.id row s.refreshTokens).map fun refreshTokens =>
      { s with refreshTokens := refreshTokens }

/-- The INSERT of `registerUser`; a taken email makes it fail. -/
def insertUser (s : TokenStore H) (user : TokenUser) : TokenStore H :=
  if KeyedTable.hasKey TokenUser.email user.email s.users then s
  else { s with users := (KeyedTable.insert TokenUser.id user s.users).getD s.users }

variable [DecidableEq H] (cfg : JwtConfig) (bcrypt : Bcrypt H S)

/-- What `rotateRefreshToken` returns for a row. -/
def rotation (row : TokenCandidate H) (newRefresh : JSString) : Rotation where
  rowId := row.id
  userId := row.userId
  tokens := ⟨⟨row.userId, row.email, row.displayName⟩, newRefresh, cfg.accessExpiry⟩

/-- A call returns: a rotation with its pair, a login with the token alone. -/
def returned (s : TokenStore H) (rotation : Option Rotation) : TokenStore H :=
  { s with rotations := s.rotations ++ rotation.toList }

/-- The loop over the rows: it ends with `null` when there is none left. -/
def nextCandidate (rawToken : JSString) : List (TokenCandidate H) → Option (TokenCall H)
  | [] => none
  | row :: rest => some (.compare rawToken row rest)

/-- A call up to its next await, or to its end. -/
def exec (s : TokenStore H) (call : TokenCall H) (draws : TokenDraws S) :
    TokenStore H × Option (TokenCall H) :=
  match call with
  | .registerUser user => (s.insertUser user, none)
  | .hash userId rotated =>
      (s, some (.insert userId draws.raw (bcrypt.hash draws.raw draws.salt)
        (draws.now + cfg.refreshExpiry * 1000) rotated))
  | .insert userId raw hash expiresAt rotated =>
      match s.insertToken
          ⟨draws.id, userId, hash, raw.take tokenPrefixLen, expiresAt, false⟩ with
      | some s' => (s'.returned (rotated.map (rotation cfg · raw)), none)
      | none => (s, none)
  | .select rawToken =>
      if rawToken.length < tokenPrefixLen then (s, none)
      else (s, nextCandidate rawToken (s.lookUp (rawToken.take tokenPrefixLen) draws.now))
  | .compare rawToken row rest =>
      if bcrypt.compare rawToken row.tokenHash then (s, some (.update row))
      else (s, nextCandidate rawToken rest)
  | .update row => (s.revoke row.id, some (.hash row.userId (some row)))

/-- How a call begins. -/
def Arrives : TokenCall H → Prop
  | .registerUser _ => True
  | .hash _ rotated => rotated = none
  | .select _ => True
  | _ => False

instance : DecidablePred (Arrives : TokenCall H → Prop)
  | .registerUser _ => isTrue trivial
  | .hash _ rotated => inferInstanceAs (Decidable (rotated = none))
  | .select _ => isTrue trivial
  | .insert .. => isFalse id
  | .compare .. => isFalse id
  | .update _ => isFalse id

/-- The row that is to be revoked has not been revoked yet. -/
def Unrevoked (s : TokenStore H) (call : TokenCall H) (_ : TokenDraws S) : Prop :=
  match call with
  | .update row => ∀ r ∈ s.refreshTokens, r.id = row.id → r.revoked = false
  | _ => True

instance (s : TokenStore H) (call : TokenCall H) (draws : TokenDraws S) :
    Decidable (s.Unrevoked call draws) :=
  match call with
  | .update row =>
      inferInstanceAs (Decidable (∀ r ∈ s.refreshTokens, r.id = row.id → r.revoked = false))
  | .registerUser _ => isTrue trivial
  | .hash .. => isTrue trivial
  | .insert .. => isTrue trivial
  | .select _ => isTrue trivial
  | .compare .. => isTrue trivial

/-- The tables before the calls, with whatever rows. -/
def start (users : List TokenUser) (rows : List (RefreshTokenRow H)) : TokenStore H :=
  ⟨users, rows, []⟩

/-- **Refresh tokens are single-use**: no row is exchanged for two pairs. -/
def SingleUse (s : TokenStore H) : Prop := (s.rotations.map Rotation.rowId).Nodup

instance (s : TokenStore H) : Decidable s.SingleUse := inferInstanceAs (Decidable (List.Nodup _))

/-! ## The rows of the table -/

variable {s : TokenStore H} {cfg : JwtConfig} {bcrypt : Bcrypt H S} {id : JSString}
variable {call : TokenCall H} {draws : TokenDraws S}

/-- There is a row with the id. -/
def HasRow (s : TokenStore H) (id : JSString) : Prop := ∃ r ∈ s.refreshTokens, r.id = id

/-- There is a revoked row with the id. -/
def IsRevoked (s : TokenStore H) (id : JSString) : Prop :=
  ∃ r ∈ s.refreshTokens, r.id = id ∧ r.revoked = true

instance (s : TokenStore H) (id : JSString) : Decidable (s.IsRevoked id) :=
  inferInstanceAs (Decidable (∃ r ∈ s.refreshTokens, r.id = id ∧ r.revoked = true))

omit [DecidableEq H] in
/-- What the lookup returns are rows of the table. -/
lemma hasRow_of_mem_lookUp {tokenPrefix : JSString} {now : Nat} {row : TokenCandidate H}
    (h : row ∈ s.lookUp tokenPrefix now) : s.HasRow row.id := by
  obtain ⟨r, hr, hrow⟩ := List.mem_filterMap.mp h
  obtain ⟨u, -, rfl⟩ := Option.map_eq_some_iff.mp hrow
  exact ⟨r, (List.mem_filter.mp hr).1, rfl⟩

omit [DecidableEq H] in
lemma hasRow_revoke (id' : JSString) (h : s.HasRow id) : (s.revoke id').HasRow id := by
  obtain ⟨r, hr, rfl⟩ := h
  by_cases hthis : r.id = id'
  · exact ⟨_, KeyedTable.mem_update.mpr (Or.inr ⟨r, hr, hthis, rfl⟩), rfl⟩
  · exact ⟨r, KeyedTable.mem_update.mpr (Or.inl ⟨hr, hthis⟩), rfl⟩

omit [DecidableEq H] in
/-- Revoking a row revokes that row and no other. -/
lemma isRevoked_revoke (id' : JSString) :
    (s.revoke id').IsRevoked id ↔ s.IsRevoked id ∨ id = id' ∧ s.HasRow id := by
  constructor
  · rintro ⟨r, hr, hid, hrevoked⟩
    rcases KeyedTable.mem_update.mp hr with ⟨hr, -⟩ | ⟨r', hr', hthis, rfl⟩
    · exact Or.inl ⟨r, hr, hid, hrevoked⟩
    · exact Or.inr ⟨hid.symm.trans hthis, r', hr', hid⟩
  · rintro (⟨r, hr, hid, hrevoked⟩ | ⟨rfl, r, hr, hid⟩)
    · by_cases hthis : r.id = id'
      · exact ⟨_, KeyedTable.mem_update.mpr (Or.inr ⟨r, hr, hthis, rfl⟩), hid, rfl⟩
      · exact ⟨r, KeyedTable.mem_update.mpr (Or.inl ⟨hr, hthis⟩), hid, hrevoked⟩
    · exact ⟨_, KeyedTable.mem_update.mpr (Or.inr ⟨r, hr, hid, rfl⟩), hid, rfl⟩

/-- What an INSERT that goes through does: a row more, which is not revoked. -/
lemma insertToken_eq_some {row : RefreshTokenRow H} {s' : TokenStore H}
    (h : s.insertToken row = some s') :
    s' = { s with refreshTokens := s.refreshTokens ++ [row] } := by
  unfold insertToken at h
  split at h
  · simp at h
  · obtain ⟨rows, hinsert, rfl⟩ := Option.map_eq_some_iff.mp h
    rw [(KeyedTable.insert_eq_some hinsert).1]

/-! ## What a call does -/

/-- The rows that a call has read and not revoked yet. -/
def candidates : TokenCall H → List (TokenCandidate H)
  | .compare _ row rest => row :: rest
  | .update row => [row]
  | _ => []

/-- The row that a call has revoked and not returned a pair for yet. -/
def rotating : TokenCall H → Option (TokenCandidate H)
  | .hash _ rotated => rotated
  | .insert _ _ _ _ rotated => rotated
  | _ => none

/-- What a call has read are rows of the table. -/
def Known (s : TokenStore H) (call : TokenCall H) : Prop :=
  ∀ row ∈ candidates call, s.HasRow row.id

lemma hasRow_exec (h : s.HasRow id) : (s.exec cfg bcrypt call draws).1.HasRow id := by
  cases call with
  | registerUser user =>
      show (s.insertUser user).HasRow id
      unfold insertUser
      split <;> exact h
  | insert userId raw hash expiresAt rotated =>
      unfold exec
      dsimp only
      split
      · rename_i s' hs'
        obtain rfl := insertToken_eq_some hs'
        obtain ⟨r, hr, hid⟩ := h
        exact ⟨r, List.mem_append_left _ hr, hid⟩
      · exact h
  | select rawToken =>
      unfold exec
      dsimp only
      split <;> exact h
  | compare rawToken row rest =>
      unfold exec
      dsimp only
      split <;> exact h
  | update row => exact hasRow_revoke row.id h
  | hash userId rotated => exact h

omit [DecidableEq H] in
lemma candidates_nextCandidate {rawToken : JSString} {rows : List (TokenCandidate H)}
    {next : TokenCall H} (h : next ∈ nextCandidate rawToken rows) : candidates next = rows := by
  cases rows with
  | nil => simp [nextCandidate] at h
  | cons row rest =>
      obtain rfl := Option.some.inj h
      rfl

lemma known_exec (h : s.Known call) {next : TokenCall H}
    (hnext : next ∈ (s.exec cfg bcrypt call draws).2) :
    (s.exec cfg bcrypt call draws).1.Known next := by
  cases call with
  | registerUser user => exact absurd hnext nofun
  | hash userId rotated =>
      obtain rfl := Option.some.inj hnext
      exact nofun
  | insert userId raw hash expiresAt rotated =>
      unfold exec at hnext
      dsimp only at hnext
      split at hnext <;> exact absurd hnext nofun
  | select rawToken =>
      unfold exec at hnext ⊢
      dsimp only at hnext ⊢
      split at hnext
      · exact absurd hnext nofun
      · rw [if_neg ‹_›]
        intro row hrow
        rw [candidates_nextCandidate hnext] at hrow
        exact hasRow_of_mem_lookUp hrow
  | compare rawToken row rest =>
      unfold exec at hnext ⊢
      dsimp only at hnext ⊢
      split at hnext
      · rw [if_pos ‹_›]
        obtain rfl := Option.some.inj hnext
        exact fun row' hrow' => h row' (List.mem_cons.mpr (Or.inl (List.mem_singleton.mp hrow')))
      · rw [if_neg ‹_›]
        intro row' hrow'
        rw [candidates_nextCandidate hnext] at hrow'
        exact h row' (List.mem_cons_of_mem _ hrow')
  | update row =>
      obtain rfl := Option.some.inj hnext
      exact nofun

/-! ## The account of a row -/

/-- The rotations of a row: those that were returned, and one more as long as it is not revoked. -/
def spent (id : JSString) (s : TokenStore H) : Nat :=
  (s.rotations.map Rotation.rowId).count id + if s.IsRevoked id then 0 else 1

/-- A call that has revoked the row weighs one. -/
def weight (id : JSString) (call : TokenCall H) : Nat :=
  ((rotating call).map TokenCandidate.id).toList.count id

omit [DecidableEq H] in
lemma spent_congr {s' : TokenStore H} (hrotations : s'.rotations = s.rotations)
    (hrevoked : s'.IsRevoked id ↔ s.IsRevoked id) : s'.spent id = s.spent id := by
  unfold spent
  rw [hrotations]
  by_cases h : s.IsRevoked id
  · rw [if_pos h, if_pos (hrevoked.mpr h)]
  · rw [if_neg h, if_neg (hrevoked.not.mpr h)]

omit [DecidableEq H] in
lemma weight_nextCandidate (rawToken : JSString) (rows : List (TokenCandidate H)) :
    ((nextCandidate rawToken rows).toList.map (weight id)).sum = 0 := by
  cases rows <;> rfl

lemma spent_insertToken {row : RefreshTokenRow H} {s' : TokenStore H}
    (h : s.insertToken row = some s') (hnew : row.revoked = false) : s'.spent id = s.spent id := by
  obtain rfl := insertToken_eq_some h
  refine spent_congr rfl ⟨?_, ?_⟩
  · rintro ⟨r, hr, hid, hrevoked⟩
    rcases List.mem_append.mp hr with hr | hr
    · exact ⟨r, hr, hid, hrevoked⟩
    · rw [List.mem_singleton.mp hr, hnew] at hrevoked
      exact Bool.noConfusion hrevoked
  · rintro ⟨r, hr, h⟩
    exact ⟨r, List.mem_append_left _ hr, h⟩

omit [DecidableEq H] in
lemma spent_returned (rotation : Option Rotation) :
    (s.returned rotation).spent id =
      s.spent id + (rotation.map Rotation.rowId).toList.count id := by
  have hsame : (s.returned rotation).IsRevoked id ↔ s.IsRevoked id := Iff.rfl
  have hids : ((s.returned rotation).rotations.map Rotation.rowId).count id =
      (s.rotations.map Rotation.rowId).count id +
        (rotation.map Rotation.rowId).toList.count id := by
    rw [returned, List.map_append, List.count_append]
    cases rotation <;> rfl
  unfold spent
  rw [hids]
  by_cases h : s.IsRevoked id
  · rw [if_pos h, if_pos (hsame.mpr h)]
    omega
  · rw [if_neg h, if_neg (hsame.not.mpr h)]
    omega

omit [DecidableEq H] in
/-- **Revoking a row** that was not revoked moves its one rotation to the call. -/
lemma spent_revoke {row : TokenCandidate H} (hrow : s.HasRow row.id)
    (hok : ∀ r ∈ s.refreshTokens, r.id = row.id → r.revoked = false) :
    (s.revoke row.id).spent id + [row.id].count id = s.spent id := by
  have hiff : (s.revoke row.id).IsRevoked id ↔ s.IsRevoked id ∨ id = row.id ∧ s.HasRow id :=
    isRevoked_revoke row.id
  by_cases hthis : id = row.id
  · subst hthis
    have hnot : ¬ s.IsRevoked row.id := by
      rintro ⟨r, hr, hid, hrevoked⟩
      rw [hok r hr hid] at hrevoked
      exact Bool.noConfusion hrevoked
    unfold spent
    rw [if_neg hnot, if_pos (hiff.mpr (Or.inr ⟨rfl, hrow⟩)), List.count_singleton_self]
    rfl
  · rw [List.count_eq_zero.mpr (by simpa using hthis)]
    exact spent_congr rfl (hiff.trans (or_iff_left fun h => hthis h.1))

/-- **Every call pays** for what it does. -/
lemma pay (hknown : s.Known call) (hok : s.Unrevoked call draws) :
    (s.exec cfg bcrypt call draws).1.spent id +
        ((s.exec cfg bcrypt call draws).2.toList.map (weight id)).sum ≤
      s.spent id + weight id call := by
  cases call with
  | registerUser user =>
      have hsame : (s.insertUser user).spent id = s.spent id := by
        unfold insertUser
        split <;> exact spent_congr rfl Iff.rfl
      show (s.insertUser user).spent id + 0 ≤ _
      omega
  | hash userId rotated => exact le_refl _
  | insert userId raw hash expiresAt rotated =>
      unfold exec
      dsimp only
      split
      · rename_i s' hs'
        have hspent : s'.spent id = s.spent id := spent_insertToken hs' rfl
        have hrowId : (rotated.map (rotation cfg · raw)).map Rotation.rowId =
            rotated.map TokenCandidate.id := by cases rotated <;> rfl
        show (s'.returned _).spent id + 0 ≤ _
        rw [spent_returned, hrowId, hspent]
        exact le_refl _
      · exact Nat.le_add_right _ _
  | select rawToken =>
      unfold exec
      dsimp only
      split
      · exact Nat.le_add_right _ _
      · rw [weight_nextCandidate]
        exact Nat.le_add_right _ _
  | compare rawToken row rest =>
      unfold exec
      dsimp only
      split
      · exact Nat.le_add_right _ _
      · rw [weight_nextCandidate]
        exact Nat.le_add_right _ _
  | update row =>
      have hrevoke : (s.revoke row.id).spent id + [row.id].count id = s.spent id :=
        spent_revoke (hknown row (List.mem_singleton_self row)) hok
      show (s.revoke row.id).spent id + ([row.id].count id + 0) ≤ s.spent id + 0
      omega

/-! ## Runs -/

variable {users : List TokenUser} {rows : List (RefreshTokenRow H)}
variable {f : Flight (TokenStore H) (TokenCall H)}

lemma known_of_run (h : Interleaved (exec cfg bcrypt) Arrives Unrevoked (start users rows) f) :
    ∀ call ∈ f.calls, f.shared.Known call := by
  refine (h.invariant (I := fun _ => True) (J := Known) trivial ?_ ?_ ?_).2
  · intro s call _ harrives
    cases call with
    | registerUser | hash | select => exact nofun
    | insert | compare | update => exact absurd harrives id
  · exact fun s call draws _ hcall _ => ⟨trivial, fun next => known_exec hcall⟩
  · exact fun s call draws other _ _ _ hother row hrow => hasRow_exec (hother row hrow)

/-- **Refresh tokens are single-use** in every run in which what is revoked was not revoked
before. -/
theorem refresh_tokens_single_use
    (h : Interleaved (exec cfg bcrypt) Arrives Unrevoked (start users rows) f) :
    f.shared.SingleUse := by
  refine List.nodup_iff_count_le_one.mpr fun id => ?_
  have haccount := h.account (I := fun _ => True) (J := Known)
    (fun f hf => ⟨trivial, known_of_run hf⟩) (spent id) (weight id) (fun call harrives => ?_)
    fun s call draws _ hknown hok => pay hknown hok
  · have hstart : (start users rows).spent id ≤ 1 := by
      unfold spent start
      split <;> simp
    unfold spent at haccount hstart
    omega
  · cases call with
    | hash userId rotated =>
        obtain rfl : rotated = none := harrives
        rfl
    | registerUser | select => rfl
    | insert | compare | update => exact absurd harrives nofun

/-! ## One token, twice -/

/-- Hashes that can be read off. -/
def plainBcrypt : Bcrypt (JSString × Nat) Nat where
  hash := Prod.mk
  compare := fun raw hash => raw = hash.1
  compare_hash := by simp

/-- Ann. -/
def exampleUser : TokenUser :=
  ⟨JSString.lit "u", JSString.lit "ann@example.org", JSString.lit "Ann"⟩

/-- A token as it is drawn. -/
def exampleToken : JSString := JSString.lit "0f8fad5b-d9cb-469f-a165-70867728950e"

/-- The token of a user, valid until the time 1000. -/
def exampleRow : RefreshTokenRow (JSString × Nat) :=
  ⟨JSString.lit "r", exampleUser.id, (exampleToken, 0), exampleToken.take tokenPrefixLen, 1000,
    false⟩

/-- The row of the token, as the query for candidates returns it. -/
def exampleCandidate : TokenCandidate (JSString × Nat) :=
  ⟨exampleRow.id, exampleUser.id, exampleRow.tokenHash, exampleUser.email, exampleUser.displayName⟩

/-- What a step is given; the number tells the draws apart. -/
def exampleDraws (n : Nat) : TokenDraws Nat :=
  ⟨n, JSString.ofNat n, JSString.ofNat (n + 10000000), n⟩

/-- A step of a run on the example. -/
def exampleStep (call : TokenCall (JSString × Nat)) (n : Nat) :
    Action (TokenCall (JSString × Nat)) (TokenDraws Nat) :=
  .resume call (exampleDraws n)

/-- The steps of a rotation from its UPDATE on. -/
def exampleRest (n : Nat) : List (Action (TokenCall (JSString × Nat)) (TokenDraws Nat)) :=
  [exampleStep (.update exampleCandidate) n,
    exampleStep (.hash exampleUser.id (some exampleCandidate)) n,
    exampleStep (.insert exampleUser.id (exampleDraws n).raw ((exampleDraws n).raw, n)
      (n + 604800000) (some exampleCandidate)) n]

/-- The steps of a rotation up to its UPDATE. -/
def exampleLookup (n : Nat) : List (Action (TokenCall (JSString × Nat)) (TokenDraws Nat)) :=
  [.arrive (.select exampleToken), exampleStep (.select exampleToken) n,
    exampleStep (.compare exampleToken exampleCandidate []) n]

/-- A quarter of an hour, and a week. -/
def exampleConfig : JwtConfig := ⟨900, 604800⟩

/-- The token is used, and then used again. -/
def usedAgain : Flight (TokenStore (JSString × Nat)) (TokenCall (JSString × Nat)) :=
  (Transition.runAllowed (step (exec exampleConfig plainBcrypt)) (allowed Arrives Unrevoked)
    ⟨start [exampleUser] [exampleRow], []⟩
    (exampleLookup 1 ++ exampleRest 1 ++
      [.arrive (.select exampleToken), exampleStep (.select exampleToken) 2])).get
    (by decide +kernel)

theorem refresh_tokens_single_use_usedAgain :
    SingleUse usedAgain.shared ∧ usedAgain.shared.rotations.length = 1 := by
  have hrun : Interleaved (exec exampleConfig plainBcrypt) Arrives Unrevoked
      (start [exampleUser] [exampleRow]) usedAgain := Transition.reach_get _
  exact ⟨refresh_tokens_single_use hrun, by decide +kernel⟩

/-- Two calls look the token up, and then both go on. -/
def usedTwice : Flight (TokenStore (JSString × Nat)) (TokenCall (JSString × Nat)) :=
  (Transition.runAllowed (step (exec exampleConfig plainBcrypt))
    (allowed Arrives fun _ _ _ => True) ⟨start [exampleUser] [exampleRow], []⟩
    (exampleLookup 1 ++ exampleLookup 2 ++ exampleRest 1 ++ exampleRest 2)).get
    (by decide +kernel)

/-- **Two pairs for one token**. -/
theorem not_forall_single_use :
    ¬ ∀ (cfg : JwtConfig) (bcrypt : Bcrypt (JSString × Nat) Nat) (users : List TokenUser)
      (rows : List (RefreshTokenRow (JSString × Nat)))
      (f : Flight (TokenStore (JSString × Nat)) (TokenCall (JSString × Nat))),
      Interleaved (exec cfg bcrypt) Arrives (fun _ _ _ => True) (start users rows) f →
        f.shared.SingleUse := by
  intro h
  have hrun : Interleaved (exec exampleConfig plainBcrypt) Arrives (fun _ _ _ => True)
      (start [exampleUser] [exampleRow]) usedTwice := Transition.reach_get _
  have hnot : ¬ usedTwice.shared.SingleUse := by decide +kernel
  exact hnot (h _ _ _ _ _ hrun)

end TokenStore

end SyncEngine
