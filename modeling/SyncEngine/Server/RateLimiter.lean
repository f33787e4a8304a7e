import Mathlib.Logic.Function.Basic
import SyncEngine.Shared.JsString

/-!
# The rate limiter

`checkRateLimit` (`server/sync/rate-limiter.ts`): two counters in Redis for each user, one under
a key that names the current second and one under a key that names the current minute.  The
limits are meant for a sliding window; what is counted are calls in seconds and minutes of the
clock.

* A call is let through exactly when it is one of the first `opsPerSecond` of its second and of
  the first `opsPerMinute` of its minute, rejected calls included (`decisions_eq_early`): a counter
  never expires while its second or minute lasts.
* Hence the limits hold in every window that is a second or a minute of the clock, and they hold
  in all windows exactly when such calls are few enough in every window that crosses a boundary
  (`slidingWindow_iff`).
* A burst at the end of one second and another at the start of the next one are both let through
  (`not_forall_slidingWindow`).
-/

namespace SyncEngine

/-! ## Redis -/

/-- A counter in Redis. -/
structure RedisEntry where
  value : Nat
  /-- When the key expires, `none` if it does not. -/
  expireAt : Option Nat
deriving DecidableEq

/-- The keys of the rate limiter. -/
abbrev RedisKeys := JSString → Option RedisEntry

namespace RedisKeys

/-- What is left at the time `now`. -/
def expireDue (redis : RedisKeys) (now : Nat) : RedisKeys := fun key =>
  (redis key).filter fun entry => entry.expireAt.all fun t => now ≤ t

/-- `INCR`: the new value is returned. -/
def incr (redis : RedisKeys) (key : JSString) : RedisKeys × Nat :=
  match redis key with
  | none => (Function.update redis key (some ⟨1, none⟩), 1)
  | some entry =>
      (Function.update redis key (some { entry with value := entry.value + 1 }), entry.value + 1)

/-- `EXPIRE`, in seconds. -/
def expire (redis : RedisKeys) (key : JSString) (seconds now : Nat) : RedisKeys :=
  match redis key with
  | none => redis
  | some entry =>
      Function.update redis key (some { entry with expireAt := some (now + 1000 * seconds) })

/-- The value of a counter, `0` without a key. -/
def value (redis : RedisKeys) (key : JSString) : Nat := ((redis key).map RedisEntry.value).getD 0

lemma incr_snd (redis : RedisKeys) (key : JSString) :
    (redis.incr key).2 = redis.value key + 1 := by
  rw [incr, value]
  cases redis key <;> rfl

/-- `INCR` and `EXPIRE` of one key. -/
lemma expire_incr (redis : RedisKeys) (key : JSString) (seconds now : Nat) :
    (redis.incr key).1.expire key seconds now =
      Function.update redis key (some ⟨redis.value key + 1, some (now + 1000 * seconds)⟩) := by
  rw [incr, value]
  cases redis key <;> simp [expire]

end RedisKeys

/-! ## `checkRateLimit` -/

/-- `config.rateLimit`. -/
structure RateLimits where
  opsPerSecond : Nat
  opsPerMinute : Nat
deriving DecidableEq

/-- What `checkRateLimit` returns. -/
structure RateLimitResult where
  allowed : Bool
  retryAfterMs : Option Nat
deriving DecidableEq

/-- The two kinds of counters. -/
inductive Bucket where
  | second
  | minute
deriving DecidableEq

namespace Bucket

/-- The milliseconds of a bucket. -/
def width : Bucket → Nat
  | .second => 1000
  | .minute => 60000

/-- The letter in the name of its key. -/
def letter : Bucket → CodeUnit
  | .second => JSString.codeUnit 's'
  | .minute => JSString.codeUnit 'm'

/-- How long a counter is kept, in seconds. -/
def ttl : Bucket → Nat
  | .second => 2
  | .minute => 120

/-- The calls that a bucket takes. -/
def limit (limits : RateLimits) : Bucket → Nat
  | .second => limits.opsPerSecond
  | .minute => limits.opsPerMinute

/-- The key of the counter with the given number. -/
def key (kind : Bucket) (userId : JSString) (number : Nat) : JSString :=
  JSString.lit "rl:" ++ userId ++ [JSString.colon, kind.letter] ++ JSString.colon ::
    JSString.ofNat number

lemma width_pos (kind : Bucket) : 0 < kind.width := by cases kind <;> decide

/-- A counter is kept for two seconds, or two minutes. -/
lemma ttl_eq (kind : Bucket) : 1000 * kind.ttl = 2 * kind.width := by cases kind <;> rfl

/-- Every user has counters of their own. -/
lemma key_inj {kind kind' : Bucket} {u u' : JSString} {n n' : Nat}
    (h : kind.key u n = kind'.key u' n') : kind = kind' ∧ u = u' ∧ n = n' := by
  obtain ⟨hfront, hn⟩ := JSString.colon_ofNat_inj h
  obtain ⟨huser, hkind⟩ := List.append_inj' hfront rfl
  have hletter : kind.letter = kind'.letter := by simpa using hkind
  refine ⟨?_, List.append_cancel_left huser, hn⟩
  cases kind <;> cases kind' <;> first | rfl | exact absurd hletter (by decide)

end Bucket

/-- A call for the user at the time `now`, with Redis available. -/
def checkRateLimit (limits : RateLimits) (redis : RedisKeys) (userId : JSString) (now : Nat) :
    RedisKeys × RateLimitResult :=
  let redis := redis.expireDue now
  let perSecKey := Bucket.second.key userId (now / 1000)
  let perMinKey := Bucket.minute.key userId (now / 60000)
  let (redis, perSec) := redis.incr perSecKey
  let redis := redis.expire perSecKey 2 now
  let (redis, perMin) := redis.incr perMinKey
  let redis := redis.expire perMinKey 120 now
  (redis,
    if perSec > limits.opsPerSecond then ⟨false, some 1000⟩
    else if perMin > limits.opsPerMinute then ⟨false, some 60000⟩
    else ⟨true, none⟩)

/-- A call of `checkRateLimit`, with the time it reads. -/
structure RateCall where
  userId : JSString
  now : Nat
deriving DecidableEq

/-- The results of calls that are made one after the other. -/
def decisionsFrom (limits : RateLimits) : RedisKeys → List RateCall →
    List (RateCall × RateLimitResult)
  | _, [] => []
  | redis, c :: calls =>
      let (redis, result) := checkRateLimit limits redis c.userId c.now
      (c, result) :: decisionsFrom limits redis calls

/-- The calls with their results, from empty keys on. -/
def decisions (limits : RateLimits) (calls : List RateCall) : List (RateCall × RateLimitResult) :=
  decisionsFrom limits (fun _ => none) calls

/-- How many calls of the user are let through in an interval. -/
def allowedIn (results : List (RateCall × RateLimitResult)) (userId : JSString)
    (start length : Nat) : Nat :=
  results.countP fun r =>
    r.2.allowed && decide (r.1.userId = userId ∧ start ≤ r.1.now ∧ r.1.now < start + length)

/-- **A sliding window**: the limits hold in every interval of a second and of a minute. -/
def SlidingWindow (limits : RateLimits) (results : List (RateCall × RateLimitResult))
    (userId : JSString) : Prop :=
  ∀ (kind : Bucket) (start : Nat), allowedIn results userId start kind.width ≤ kind.limit limits

/-! ## Calls by the order of their arrival -/

namespace RateCall

/-- The call falls into the user's second, or minute, with the given number. -/
def InBucket (kind : Bucket) (userId : JSString) (number : Nat) (c : RateCall) : Prop :=
  c.userId = userId ∧ c.now / kind.width = number

instance (kind : Bucket) (userId : JSString) (number : Nat) :
    DecidablePred (InBucket kind userId number) := fun _ => inferInstanceAs (Decidable (_ ∧ _))

/-- How many of the calls before it are in the call's own second, or minute. -/
def rank (kind : Bucket) (before : List RateCall) (c : RateCall) : Nat :=
  before.countP fun c' => InBucket kind c.userId (c.now / kind.width) c'

/-- The call is one of the first of its second and of its minute. -/
def Early (limits : RateLimits) (before : List RateCall) (c : RateCall) : Prop :=
  c.rank .second before < limits.opsPerSecond ∧ c.rank .minute before < limits.opsPerMinute

instance (limits : RateLimits) (before : List RateCall) : DecidablePred (Early limits before) :=
  fun _ => inferInstanceAs (Decidable (_ ∧ _))

end RateCall

open RateCall

/-- Which of the calls are early, after those in `before`. -/
def earlyFrom (limits : RateLimits) : List RateCall → List RateCall → List (RateCall × Bool)
  | _, [] => []
  | before, c :: calls =>
      (c, decide (Early limits before c)) :: earlyFrom limits (before ++ [c]) calls

/-- How many early calls of the user arrive in an interval. -/
def earlyIn (limits : RateLimits) (before calls : List RateCall) (userId : JSString)
    (start length : Nat) : Nat :=
  (earlyFrom limits before calls).countP fun r =>
    r.2 && decide (r.1.userId = userId ∧ start ≤ r.1.now ∧ r.1.now < start + length)

/-! ## The counters -/

/-- The counters of the current second and minute, and of later ones, count the calls so far and
outlive their second or minute. -/
def Counts (before : List RateCall) (t : Nat) (redis : RedisKeys) : Prop :=
  ∀ (kind : Bucket) (userId : JSString) (number : Nat), t / kind.width ≤ number →
    redis.value (kind.key userId number) = before.countP (fun c => InBucket kind userId number c) ∧
    ∀ entry, redis (kind.key userId number) = some entry →
      ∃ x, entry.expireAt = some x ∧ (number + 1) * kind.width ≤ x

lemma counts_start : Counts [] 0 fun _ => none :=
  fun _ _ _ _ => ⟨rfl, fun _ h => absurd h (by simp)⟩

lemma Counts.expireDue {before : List RateCall} {t now : Nat} {redis : RedisKeys}
    (h : Counts before t redis) (hle : t ≤ now) : Counts before now (redis.expireDue now) := by
  intro kind userId number hnumber
  obtain ⟨hvalue, hkept⟩ := h kind userId number ((Nat.div_le_div_right hle).trans hnumber)
  have hsame : redis.expireDue now (kind.key userId number) = redis (kind.key userId number) := by
    rw [RedisKeys.expireDue]
    cases hentry : redis (kind.key userId number) with
    | none => rfl
    | some entry =>
        obtain ⟨x, hx, hlater⟩ := hkept entry hentry
        have hnow : now < (number + 1) * kind.width :=
          (Nat.div_lt_iff_lt_mul kind.width_pos).mp (Nat.lt_succ_of_le hnumber)
        simp only [Option.filter_some, hx, Option.all_some, decide_eq_true_eq]
        rw [if_pos (hnow.le.trans hlater)]
  rw [RedisKeys.value, hsame]
  exact ⟨hvalue, hkept⟩

/-- A call counts up two counters, and looks at both. -/
lemma checkRateLimit_eq (limits : RateLimits) {redis r : RedisKeys} (userId : JSString) {now : Nat}
    (hr : redis.expireDue now = r) :
    checkRateLimit limits redis userId now =
      (Function.update
        (Function.update r (Bucket.second.key userId (now / 1000))
          (some ⟨r.value (Bucket.second.key userId (now / 1000)) + 1, some (now + 1000 * 2)⟩))
        (Bucket.minute.key userId (now / 60000))
        (some ⟨r.value (Bucket.minute.key userId (now / 60000)) + 1, some (now + 1000 * 120)⟩),
      if r.value (Bucket.second.key userId (now / 1000)) + 1 > limits.opsPerSecond then
        ⟨false, some 1000⟩
      else if r.value (Bucket.minute.key userId (now / 60000)) + 1 > limits.opsPerMinute then
        ⟨false, some 60000⟩
      else ⟨true, none⟩) := by
  have hne : Bucket.minute.key userId (now / 60000) ≠ Bucket.second.key userId (now / 1000) :=
    fun h => absurd (Bucket.key_inj h).1 (by decide)
  have hvalue : ∀ entry, RedisKeys.value
      (Function.update r (Bucket.second.key userId (now / 1000)) entry)
      (Bucket.minute.key userId (now / 60000)) =
        r.value (Bucket.minute.key userId (now / 60000)) := by
    intro entry
    rw [RedisKeys.value, Function.update_of_ne hne, RedisKeys.value]
  simp only [checkRateLimit, hr, RedisKeys.expire_incr, RedisKeys.incr_snd, hvalue]

/-- What a call does to a counter. -/
lemma checkRateLimit_fst (limits : RateLimits) {redis r : RedisKeys} (userId : JSString) {now : Nat}
    (hr : redis.expireDue now = r) (kind : Bucket) (u : JSString) (number : Nat) :
    (checkRateLimit limits redis userId now).1 (kind.key u number) =
      if u = userId ∧ number = now / kind.width then
        some ⟨r.value (kind.key userId (now / kind.width)) + 1, some (now + 1000 * kind.ttl)⟩
      else r (kind.key u number) := by
  have hsecond : ¬ (kind = .second ∧ u = userId ∧ number = now / kind.width) →
      kind.key u number ≠ Bucket.second.key userId (now / 1000) := by
    intro hne h
    obtain ⟨rfl, hu, hn⟩ := Bucket.key_inj h
    exact hne ⟨rfl, hu, hn⟩
  have hminute : ¬ (kind = .minute ∧ u = userId ∧ number = now / kind.width) →
      kind.key u number ≠ Bucket.minute.key userId (now / 60000) := by
    intro hne h
    obtain ⟨rfl, hu, hn⟩ := Bucket.key_inj h
    exact hne ⟨rfl, hu, hn⟩
  rw [checkRateLimit_eq limits userId hr]
  show Function.update (Function.update r (Bucket.second.key userId (now / 1000)) _)
    (Bucket.minute.key userId (now / 60000)) _ (kind.key u number) = _
  by_cases hkey : u = userId ∧ number = now / kind.width
  · rw [if_pos hkey]
    obtain ⟨rfl, rfl⟩ := hkey
    cases kind with
    | second =>
        rw [Function.update_of_ne (hminute (by simp))]
        exact Function.update_self ..
    | minute => exact Function.update_self ..
  · rw [if_neg hkey, Function.update_of_ne (hminute fun h => hkey h.2),
      Function.update_of_ne (hsecond fun h => hkey h.2)]

/-- What it answers. -/
lemma allowed_checkRateLimit (limits : RateLimits) {redis r : RedisKeys} (userId : JSString)
    {now : Nat} (hr : redis.expireDue now = r) :
    (checkRateLimit limits redis userId now).2.allowed = true ↔
      r.value (Bucket.second.key userId (now / 1000)) < limits.opsPerSecond ∧
      r.value (Bucket.minute.key userId (now / 60000)) < limits.opsPerMinute := by
  rw [checkRateLimit_eq limits userId hr]
  dsimp only
  split_ifs with hsecond hminute
  · exact iff_of_false (by simp) fun h => absurd h.1 (by omega)
  · exact iff_of_false (by simp) fun h => absurd h.2 (by omega)
  · exact iff_of_true rfl ⟨by omega, by omega⟩

lemma Counts.checkRateLimit {before : List RateCall} {t : Nat} {redis : RedisKeys} {c : RateCall}
    (h : Counts before t redis) (hle : t ≤ c.now) (limits : RateLimits) :
    Counts (before ++ [c]) c.now (checkRateLimit limits redis c.userId c.now).1 := by
  have hdue := h.expireDue hle
  intro kind userId number hnumber
  obtain ⟨hvalue, hkept⟩ := hdue kind userId number hnumber
  rw [RedisKeys.value, checkRateLimit_fst limits c.userId rfl, List.countP_append, ← hvalue]
  by_cases hkey : userId = c.userId ∧ number = c.now / kind.width
  · obtain ⟨rfl, rfl⟩ := hkey
    rw [if_pos ⟨rfl, rfl⟩]
    refine ⟨by simp [InBucket], fun entry hentry => ?_⟩
    obtain rfl := Option.some.inj hentry
    refine ⟨_, rfl, ?_⟩
    have hdiv := Nat.div_mul_le_self c.now kind.width
    rw [kind.ttl_eq, Nat.add_mul, Nat.one_mul]
    omega
  · rw [if_neg hkey]
    refine ⟨?_, hkept⟩
    have hnone : ¬ InBucket kind userId number c := fun hin => hkey ⟨hin.1.symm, hin.2.symm⟩
    simp [hnone, RedisKeys.value]

lemma allowed_iff_early {before : List RateCall} {t : Nat} {redis : RedisKeys} {c : RateCall}
    (h : Counts before t redis) (hle : t ≤ c.now) (limits : RateLimits) :
    (checkRateLimit limits redis c.userId c.now).2.allowed = true ↔ Early limits before c := by
  have hdue := h.expireDue hle
  have hsecond := (hdue .second c.userId (c.now / 1000) le_rfl).1
  have hminute := (hdue .minute c.userId (c.now / 60000) le_rfl).1
  rw [allowed_checkRateLimit limits c.userId rfl, hsecond, hminute]
  rfl

lemma decisionsFrom_eq_earlyFrom (limits : RateLimits) {before calls : List RateCall} {t : Nat}
    {redis : RedisKeys} (h : Counts before t redis) (hle : ∀ c ∈ calls, t ≤ c.now)
    (hsorted : calls.Pairwise fun c c' => c.now ≤ c'.now) :
    (decisionsFrom limits redis calls).map (fun r => (r.1, r.2.allowed)) =
      earlyFrom limits before calls := by
  induction calls generalizing before t redis with
  | nil => rfl
  | cons c calls ih =>
      have hc := hle c List.mem_cons_self
      obtain ⟨hlater, hsorted⟩ := List.pairwise_cons.mp hsorted
      rw [decisionsFrom, earlyFrom, List.map_cons, ih (h.checkRateLimit hc limits) hlater hsorted]
      have hallowed := allowed_iff_early h hc limits
      rw [← decide_eq_true_eq (p := Early limits before c), ← Bool.eq_iff_iff] at hallowed
      rw [hallowed]

/-- **A call is let through exactly when it is early.** -/
theorem decisions_eq_early (limits : RateLimits) {calls : List RateCall}
    (hsorted : calls.Pairwise fun c c' => c.now ≤ c'.now) :
    (decisions limits calls).map (fun r => (r.1, r.2.allowed)) =
      earlyFrom limits [] calls :=
  decisionsFrom_eq_earlyFrom limits counts_start (fun _ _ => Nat.zero_le _) hsorted

lemma allowedIn_eq_earlyIn (limits : RateLimits) {calls : List RateCall}
    (hsorted : calls.Pairwise fun c c' => c.now ≤ c'.now) (userId : JSString)
    (start length : Nat) :
    allowedIn (decisions limits calls) userId start length =
      earlyIn limits [] calls userId start length := by
  rw [allowedIn, earlyIn, ← decisions_eq_early limits hsorted, List.countP_map]
  rfl

/-! ## Windows -/

/-- Of the calls in one second or minute no more than the limit are early. -/
lemma countP_early_le (limits : RateLimits) (kind : Bucket) (userId : JSString) (number : Nat)
    (before calls : List RateCall) :
    ((earlyFrom limits before calls).countP fun r =>
        r.2 && decide (InBucket kind userId number r.1)) ≤
      kind.limit limits - before.countP fun c => InBucket kind userId number c := by
  induction calls generalizing before with
  | nil => exact Nat.zero_le _
  | cons c calls ih =>
      have ih' := ih (before ++ [c])
      rw [earlyFrom, List.countP_cons]
      rw [List.countP_append] at ih'
      by_cases hc : InBucket kind userId number c
      · have hone : [c].countP (fun c => decide (InBucket kind userId number c)) = 1 := by
          simp [hc]
        rw [hone] at ih'
        by_cases hearly : Early limits before c
        · have hrank : c.rank kind before < kind.limit limits := by
            cases kind
            · exact hearly.1
            · exact hearly.2
          obtain ⟨rfl, rfl⟩ := hc
          rw [rank] at hrank
          rw [if_pos (by simp [hearly, InBucket])]
          omega
        · rw [if_neg (by simp [hearly])]
          omega
      · have hnone : [c].countP (fun c => decide (InBucket kind userId number c)) = 0 := by
          simp [hc]
        rw [hnone] at ih'
        rw [if_neg (by simp [hc])]
        exact ih'

/-- A window that is a second or a minute of the clock holds no more early calls than the limit. -/
lemma earlyIn_aligned_le (limits : RateLimits) (calls : List RateCall) (userId : JSString)
    (kind : Bucket) {start : Nat} (haligned : start % kind.width = 0) :
    earlyIn limits [] calls userId start kind.width ≤ kind.limit limits := by
  obtain ⟨number, rfl⟩ := Nat.dvd_of_mod_eq_zero haligned
  have hle := countP_early_le limits kind userId number [] calls
  refine le_trans (le_of_eq ?_) (hle.trans (Nat.sub_le _ _))
  rw [earlyIn]
  refine List.countP_congr fun r _ => ?_
  have hiff : (kind.width * number ≤ r.1.now ∧ r.1.now < kind.width * number + kind.width) ↔
      r.1.now / kind.width = number := by
    rw [Nat.div_eq_iff kind.width_pos, Nat.mul_comm number]
    have := kind.width_pos
    omega
  simp only [Bool.and_eq_true, decide_eq_true_eq, hiff]
  rfl

/-- In every window that crosses a boundary of seconds, or of minutes, few enough calls of the
user are early. -/
def QuietBoundaries (limits : RateLimits) (calls : List RateCall) (userId : JSString) : Prop :=
  ∀ (kind : Bucket) (start : Nat), start % kind.width ≠ 0 →
    earlyIn limits [] calls userId start kind.width ≤ kind.limit limits

/-- **The window slides exactly** for the calls with quiet boundaries. -/
theorem slidingWindow_iff (limits : RateLimits) (calls : List RateCall) (userId : JSString)
    (hsorted : calls.Pairwise fun c c' => c.now ≤ c'.now) :
    SlidingWindow limits (decisions limits calls) userId ↔
      QuietBoundaries limits calls userId := by
  simp only [SlidingWindow, allowedIn_eq_earlyIn limits hsorted]
  refine ⟨fun h kind start _ => h kind start, fun h kind start => ?_⟩
  by_cases haligned : start % kind.width = 0
  · exact earlyIn_aligned_le limits calls userId kind haligned
  · exact h kind start haligned

/-- Two calls in one second, and one two seconds later. -/
theorem slidingWindow_iff_apart :
    SlidingWindow ⟨1, 2⟩
        (decisions ⟨1, 2⟩
          [⟨JSString.lit "u", 10⟩, ⟨JSString.lit "u", 20⟩, ⟨JSString.lit "u", 2500⟩])
        (JSString.lit "u") ↔
      QuietBoundaries ⟨1, 2⟩
        [⟨JSString.lit "u", 10⟩, ⟨JSString.lit "u", 20⟩, ⟨JSString.lit "u", 2500⟩]
        (JSString.lit "u") :=
  slidingWindow_iff ⟨1, 2⟩
    [⟨JSString.lit "u", 10⟩, ⟨JSString.lit "u", 20⟩, ⟨JSString.lit "u", 2500⟩] (JSString.lit "u")
    (by decide)

/-- A hundred calls in the last millisecond of one second, a hundred in the first of the next. -/
def burst : List RateCall :=
  List.replicate 100 ⟨JSString.lit "u", 999⟩ ++ List.replicate 100 ⟨JSString.lit "u", 1000⟩

/-- With the default limits all two hundred are let through. -/
theorem not_forall_slidingWindow :
    ¬ ∀ (limits : RateLimits) (calls : List RateCall) (userId : JSString),
      calls.Pairwise (fun c c' => c.now ≤ c'.now) →
      SlidingWindow limits (decisions limits calls) userId := by
  intro h
  have hsorted : burst.Pairwise fun c c' => c.now ≤ c'.now := by decide +kernel
  have hwindow := h ⟨100, 1000⟩ burst (JSString.lit "u") hsorted .second 999
  rw [allowedIn_eq_earlyIn _ hsorted] at hwindow
  exact absurd hwindow (by decide +kernel)

end SyncEngine
