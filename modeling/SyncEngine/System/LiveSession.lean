import SyncEngine.Lib.Transition
import SyncEngine.Server.BlankDocument
import SyncEngine.System.CausalFlow
import SyncEngine.System.LiveReplicas

/-!
# Live sessions

Any number of clients have opened an empty document, through any number of workers, and then edit
it together.  Before the first edit there is nothing to tell anybody (`Unedited`).  From then on
every client is a replica that reads the channel (`Live`): its session takes one operation at a
time through the gates, and what is published reaches every client in one order, with what a
client has made among it.

Seqs play no part here.  The seqs of two operations, the order in which a worker applies them and
the order in which they are published may all differ.
-/

namespace SyncEngine

open ReplicatedList CausalReplay OrderedBroadcast Transition

namespace Collaboration

open WorkerPool

variable {W C : Type*} [DecidableEq W] [DecidableEq C] {P : Participants W C}
  {s s' : Collaboration W C} {a : Action W C} {c c₀ : C} {made : List RGAOperation}

/-! ## Runs -/

/-- Every client has processed its JOIN_ACK. -/
def AllJoined (s : Collaboration W C) : Prop :=
  ∀ c, (s.connections c).hook.docRef.isSome = true

/-- Nobody edits before everybody has joined, and nothing disturbs the session. -/
def LiveAction (s : Collaboration W C) (a : Action W C) : Prop :=
  s.Undisturbed a ∧ match a with
    | .edit .. => s.AllJoined
    | _ => True

/-- No message and no handler is in flight. -/
structure Quiescent (s : Collaboration W C) : Prop where
  sockets : ∀ c, (s.connections c).toServer = [] ∧ (s.connections c).toClient = []
  sessions : ∀ c, (s.connections c).messageQueue = [] ∧ (s.connections c).isProcessing = false
  redis : ∀ w, s.pool.delivered w = s.pool.channel.length

/-! ## Before the first edit -/

/-- There is nothing to tell anybody. -/
structure Unedited (s : Collaboration W C) : Prop where
  pool : s.pool.Blank
  queued : ∀ c, s.queued c = []
  views : ∀ c v, (s.connections c).view = some v → v = ⟨[], []⟩

omit [DecidableEq W] [DecidableEq C] in
lemma unedited_start (snapshotOpsThreshold : Nat) :
    Unedited (start P snapshotOpsThreshold : Collaboration W C) where
  pool := blank_start _
  queued c := by simp [queued, start]
  views c v hv := by simp [start, Connection.view, CollaborativeDoc.new, viewFrom] at hv

omit [DecidableEq W] [DecidableEq C] in
lemma Unedited.inProcess (h : Unedited s) (c : C) : s.inProcess c = none := by
  rw [Collaboration.inProcess, h.pool.calls]
  split <;> rfl

omit [DecidableEq W] [DecidableEq C] in
lemma Unedited.calls (h : Unedited s) (hmove : ∀ c, Move P s s' c a) (k : C × Nat) :
    s'.pool.calls k = none := by
  have hold : ∀ m, s.pool.calls (k.1, m) = none := fun m => h.pool.calls _
  cases hmove k.1 with
  | begin msg rest _ hqueue _ _ _ _ =>
      have hqueued := h.queued k.1
      simp [Collaboration.queued, hqueue] at hqueued
  | advance call _ _ hcall _ _ _ _ => simp [h.pool.calls] at hcall
  | broadcast _ _ hcalls _ _ _ => exact (hcalls k.2).trans (hold k.2)
  | away haside _ _ => exact (haside.calls_eq k.2).trans (hold k.2)
  | joining _ haside _ _ _ _ => exact (haside.calls_eq k.2).trans (hold k.2)
  | acknowledge _ _ haside _ _ _ _ => exact (haside.calls_eq k.2).trans (hold k.2)
  | edit _ haside _ _ => exact (haside.calls_eq k.2).trans (hold k.2)
  | receive _ _ _ haside _ _ _ _ => exact (haside.calls_eq k.2).trans (hold k.2)
  | reject _ _ haside _ _ _ _ => exact (haside.calls_eq k.2).trans (hold k.2)
  | reply _ _ haside _ _ _ _ _ => exact (haside.calls_eq k.2).trans (hold k.2)
  | handle _ _ haside _ _ _ => exact (haside.calls_eq k.2).trans (hold k.2)

lemma Unedited.step (h : Unedited s) (hrunning : Running P s) (hallowed : s.Undisturbed a)
    (hedit : ∀ c e, a ≠ .edit c e) (hstep : s.step P a = some s') : Unedited s' := by
  have hmove := step_move hallowed.notRefused hstep
  have hclients : ∀ c, ViewMove P s s' c a [] ∧ SessionMove P s s' c a [] := by
    intro c
    obtain ⟨-, made, hview, hsession⟩ := (hrunning.served c).move hrunning.pool (hmove c)
    obtain rfl : made = [] := by
      cases hview with
      | made e _ _ _ _ _ _ _ _ _ _ => exact absurd rfl (hedit c e)
      | _ => rfl
    exact ⟨hview, hsession⟩
  refine ⟨?_, fun c => ?_, fun c v hv => ?_⟩
  · rcases pool_step hstep with hpool | ⟨b, hb, -, hbackground⟩
    · exact hpool ▸ h.pool
    · refine h.pool.step hb (h.calls hmove) fun i hi => ?_
      subst hi
      rw [hbackground rfl] at hallowed
      exact hallowed
  · cases (hclients c).2 with
    | queue _ _ _ hqueued => rw [hqueued, h.queued, List.append_nil]
    | begin msg _ _ _ hqueued => simp [h.queued] at hqueued
    | advance call _ hbefore _ _ _ => simp [h.inProcess] at hbefore
    | reply call _ _ hbefore _ _ _ => simp [h.inProcess] at hbefore
  · cases (hclients c).1 with
    | same hsame _ => exact h.views c v (hsame ▸ hv)
    | acknowledged n l _ hl _ hview =>
        obtain rfl := Option.some.inj (hview.symm.trans hv)
        rw [h.pool.entries _ n l hl]
    | arrived _ envelope hnext _ _ _ _ => simp [h.pool.channel] at hnext
    | applied _ envelope _ _ _ _ _ _ hbefore _ _ =>
        have hnone := h.views c _ hbefore
        simp at hnone

/-! ## From the first edit on -/

/-- The client is a replica that reads the channel. -/
def Replicated (P : Participants W C) (s : Collaboration W C) (c : C) : Prop :=
  ∃ doc applied, (s.connections c).hook.docRef = some doc ∧
    LiveReplica (P.siteId c) (Gate.channel.record s.pool) (s.pending .channel c)
      (s.pool.delivered (P.home c))
      ((broadcasts (s.connections c).toClient).map OperationEnvelope.op) applied doc

/-- Everybody is, and what is published is causally ordered. -/
structure Live (P : Participants W C) (s : Collaboration W C) : Prop where
  causal : CausallyValid (Gate.channel.record s.pool)
  contributing : ∀ c, Contributing .channel s (Gate.channel.record s.pool) c
  replicated : ∀ c, Replicated P s c

/-- A worker with a session that has joined has subscribed to the channel. -/
def Subscribed (P : Participants W C) (s : Collaboration W C) : Prop :=
  ∀ c, (s.connections c).join = .joined → 0 < s.opHandlers (P.home c)

omit [DecidableEq W] [DecidableEq C] in
lemma Move.joined (hmove : Move P s s' c a) (hjoined : (s'.connections c).join = .joined) :
    (s.connections c).join = .joined ∨
      a = .acknowledge c ∧ ∃ n loaded, s.pool.loaded (P.home c) n = some loaded := by
  have hold : (s'.connections c).join = (s.connections c).join →
      (s.connections c).join = .joined ∨
        a = .acknowledge c ∧ ∃ n loaded, s.pool.loaded (P.home c) n = some loaded :=
    fun heq => Or.inl (heq ▸ hjoined)
  cases hmove with
  | acknowledge n loaded _ _ _ hloaded _ => exact Or.inr ⟨rfl, n, loaded, hloaded⟩
  | joining stage _ _ _ hstage hconn =>
      rw [hconn] at hjoined
      exact absurd hjoined hstage
  | away _ _ hconn => exact hold (by rw [hconn])
  | edit _ _ _ hconn => exact hold (by rw [hconn]; rfl)
  | receive _ _ _ _ _ _ _ hconn => exact hold (by rw [hconn])
  | reject _ _ _ _ _ _ hconn => exact hold (by rw [hconn]; rfl)
  | begin _ _ _ _ _ _ _ hconn => exact hold (by rw [hconn])
  | advance _ _ _ _ _ _ _ hconn => exact hold (by rw [hconn])
  | reply _ _ _ _ _ _ _ hconn => exact hold (by rw [hconn]; rfl)
  | handle _ _ _ _ _ hconn => exact hold (by rw [hconn]; rfl)
  | broadcast _ _ _ _ _ hconn =>
      refine hold ?_
      rw [hconn, Connection.broadcast]
      split <;> rfl

lemma Subscribed.step (h : Subscribed P s) (hrefused : NotRefused a)
    (hstep : s.step P a = some s') : Subscribed P s' := by
  intro c hjoined
  obtain ⟨hle, hack⟩ := opHandlers_step hstep
  rcases (step_move hrefused hstep c).joined hjoined with hbefore | ⟨rfl, -⟩
  · exact Nat.lt_of_lt_of_le (h c hbefore) (hle _)
  · exact hack c rfl

section

omit [DecidableEq W] [DecidableEq C]

lemma Served.joined (h : Served P s c) {doc : ClientRGADocument}
    (hdoc : (s.connections c).hook.docRef = some doc) : (s.connections c).join = .joined := by
  by_contra hjoin
  have hnone := h.regular.view_eq_none.mpr hjoin
  simp [Connection.view_of_docRef hdoc] at hnone

lemma Unedited.pending (h : Unedited s) (g : Gate) (c : C) : s.pending g c = [] := by
  rw [Collaboration.pending, h.inProcess, h.queued]
  rfl

lemma Unedited.contributing (h : Unedited s) (g : Gate) (c : C) : Contributing g s [] c := by
  rw [Contributing, h.pending]
  refine .of_seen causal_nil ?_
  rintro u ⟨v, hv, hu⟩
  rw [h.views c v hv] at hu
  simp at hu

lemma Unedited.live (h : Unedited s) (hrunning : Running P s) (hdelivers : DeliversPublished s.pool)
    (hjoined : s.AllJoined) : Live P s := by
  have hrecord : Gate.channel.record s.pool = [] := by simp [Gate.record, h.pool.channel]
  refine ⟨hrecord ▸ causal_nil, fun c => ?_, fun c => ?_⟩
  · rw [hrecord]
    exact h.contributing .channel c
  · obtain ⟨doc, hdoc⟩ := Option.isSome_iff_exists.mp (hjoined c)
    have hview := h.views c _ (Connection.view_of_docRef hdoc)
    obtain ⟨hcells, hwaiting⟩ : doc.cells = [] ∧ broadcasts (s.connections c).toClient = [] := by
      simpa using hview
    have hdelivered : s.pool.delivered (P.home c) = 0 := by
      have hle := hdelivers (P.home c)
      simpa [h.pool.channel] using hle
    refine ⟨doc, [], hdoc, ?_⟩
    rw [hrecord, h.pending, hdelivered, hwaiting]
    exact .start hcells ((hrunning.served c).regular.siteId_eq doc hdoc)

lemma Served.pending_sent (h : Served P s c) (g : Gate) :
    ∀ op ∈ s.pending g c, SentBy (P.siteId c) op := by
  intro op hop
  rcases List.mem_append.mp hop with hop | hop
  · cases hprocess : s.inProcess c with
    | none => simp [hprocess] at hop
    | some call =>
        rw [hprocess] at hop
        simp only at hop
        split at hop
        · simp at hop
        · rw [List.mem_singleton.mp hop]
          exact (h.call call hprocess).sent
  · exact h.sent op hop

/-- What a client sees and makes while nobody publishes. -/
lemma Replicated.goes (h : Replicated P s c) (hserved : Served P s c)
    (hsubscribed : Subscribed P s) (hcausal : CausallyValid (Gate.channel.record s.pool))
    (hrecord : Gate.channel.record s'.pool = Gate.channel.record s.pool)
    {made : List RGAOperation} (hgoes : Goes P .channel s s' a c made) : Replicated P s' c := by
  obtain ⟨doc, applied, hdoc, hreplica⟩ := h
  obtain ⟨hview, hpending⟩ := hgoes
  have hold := Connection.view_of_docRef hdoc
  rw [Replicated, hrecord, hpending]
  cases hview with
  | same hsame hrest =>
      obtain ⟨hdoc', hdelivered⟩ := hrest doc hdoc
      rw [Connection.view_of_docRef hdoc', hold] at hsame
      have hwaiting : broadcasts (s'.connections c).toClient =
          broadcasts (s.connections c).toClient := by simpa using hsame
      refine ⟨doc, applied, hdoc', ?_⟩
      rw [hdelivered, hwaiting, List.append_nil]
      exact hreplica
  -- the replica is there, so this is no first JOIN_ACK
  | acknowledged _ _ _ _ hbefore _ => simp [hold] at hbefore
  | made _ doc₀ doc' op waiting hmade hdoc₀ hdoc' hbefore hview' hdelivered =>
      obtain rfl := Option.some.inj (hdoc.symm.trans hdoc₀)
      rw [hold] at hbefore
      rw [Connection.view_of_docRef hdoc'] at hview'
      refine ⟨doc', applied ++ [op], hdoc', ?_⟩
      obtain rfl : broadcasts (s.connections c).toClient = waiting := by simpa using hbefore
      have hwaiting : broadcasts (s'.connections c).toClient =
          broadcasts (s.connections c).toClient := by simpa using hview'
      rw [hdelivered, hwaiting]
      exact hreplica.make hmade
  | arrived v envelope hnext hdoc₀ hbefore hview' hdelivered =>
      have hdoc' := hdoc₀.trans hdoc
      rw [hold] at hbefore
      obtain rfl := Option.some.inj hbefore
      rw [Connection.view_of_docRef hdoc'] at hview'
      have hwaiting : broadcasts (s'.connections c).toClient =
          broadcasts (s.connections c).toClient ++
            List.replicate (s.opHandlers (P.home c)) envelope := by simpa using hview'
      refine ⟨doc, applied, hdoc', ?_⟩
      rw [hdelivered, hwaiting, List.append_nil, List.map_append, List.map_replicate]
      refine hreplica.deliver ?_ (hsubscribed c (hserved.joined hdoc))
      rw [Gate.record, List.getElem?_map, hnext]
      rfl
  | applied doc₀ envelope waiting e he hcells hdoc₀ hdoc' hbefore hview' hdelivered =>
      obtain rfl := Option.some.inj (hdoc.symm.trans hdoc₀)
      rw [hold] at hbefore
      have hwaiting : broadcasts (s.connections c).toClient = envelope :: waiting := by
        simpa using hbefore
      rw [Connection.view_of_docRef hdoc'] at hview'
      have hwaiting' : broadcasts (s'.connections c).toClient = waiting := by
        simpa [hcells] using hview'
      obtain ⟨hsite, hclock⟩ := doc.applyOperation_clock envelope.op
      rw [hwaiting, List.map_cons] at hreplica
      refine ⟨doc.applyOperation envelope.op, applied ++ [envelope.op], hdoc', ?_⟩
      rw [hdelivered, hwaiting', List.append_nil]
      exact hreplica.apply hcausal he hcells hclock hsite

/-- While somebody publishes, nothing changes for a client but the channel. -/
lemma ViewMove.advance (h : ViewMove P s s' c (.advance c₀) made) {doc : ClientRGADocument}
    (hdoc : (s.connections c).hook.docRef = some doc) :
    made = [] ∧ (s'.connections c).hook.docRef = some doc ∧
      s'.pool.delivered (P.home c) = s.pool.delivered (P.home c) ∧
      broadcasts (s'.connections c).toClient = broadcasts (s.connections c).toClient := by
  cases h with
  | same hsame hrest =>
      obtain ⟨hdoc', hdelivered⟩ := hrest doc hdoc
      rw [Connection.view_of_docRef hdoc', Connection.view_of_docRef hdoc] at hsame
      exact ⟨rfl, hdoc', hdelivered, by simpa using hsame⟩

/-- A client's operation is published. -/
lemma Replicated.publish (h : Replicated P s c) (hdelivers : DeliversPublished s.pool)
    {op : RGAOperation} (hview : ViewMove P s s' c (.advance c) [])
    (hrecord : Gate.channel.record s'.pool = Gate.channel.record s.pool ++ [op])
    (hpending : s.pending .channel c = op :: s'.pending .channel c) : Replicated P s' c := by
  obtain ⟨doc, applied, hdoc, hreplica⟩ := h
  obtain ⟨-, hdoc', hdelivered, hwaiting⟩ := hview.advance hdoc
  refine ⟨doc, applied, hdoc', ?_⟩
  rw [hrecord, hdelivered, hwaiting]
  rw [hpending] at hreplica
  exact hreplica.publish (by simpa [Gate.record] using hdelivers (P.home c))

/-- An operation of another client is published. -/
lemma Replicated.publish_other (h : Replicated P s c) (hdelivers : DeliversPublished s.pool)
    (hserved : Served P s c) (hc : c ≠ c₀) {op : RGAOperation} (hsent : SentBy (P.siteId c₀) op)
    (hgoes : Goes P .channel s s' (.advance c₀) c made)
    (hrecord : Gate.channel.record s'.pool = Gate.channel.record s.pool ++ [op])
    (hunique : UniqueGivers RGAOperation.gives (Gate.channel.record s.pool ++ [op])) :
    Replicated P s' c := by
  obtain ⟨doc, applied, hdoc, hreplica⟩ := h
  obtain ⟨rfl, hdoc', hdelivered, hwaiting⟩ := hgoes.1.advance hdoc
  refine ⟨doc, applied, hdoc', ?_⟩
  rw [hrecord, hdelivered, hwaiting, hgoes.2, List.append_nil]
  refine hreplica.publish_other (by simpa [Gate.record] using hdelivers (P.home c)) hunique ?_
    fun p hp => (hserved.pending_sent .channel p hp).siteId_eq
  intro u hu hsite
  exact hc (P.siteId_injective (hsite.symm.trans (hsent.siteId_eq u hu)))

lemma joinDocument_of_joined (h : (s.connections c).join = .joined) :
    s.joinDocument P c = none := by
  rw [joinDocument, h]

lemma Live.told (h : Live P s) (hrunning : Running P s) :
    ∀ u ∈ s.told P a, ∃ op ∈ Gate.channel.record s.pool, u ∈ op.gives := by
  intro u hu
  cases a with
  | acknowledge c =>
      obtain ⟨doc, applied, hdoc, -⟩ := h.replicated c
      obtain ⟨d, hd, -⟩ := hu
      rw [joinDocument_of_joined ((hrunning.served c).joined hdoc)] at hd
      simp at hd
  | deliver w =>
      obtain ⟨envelope, henvelope, hu⟩ := hu
      exact ⟨envelope.op, List.mem_map_of_mem henvelope, hu⟩
  | _ => exact absurd hu id

end

/-- **What every action of a live session keeps.** -/
theorem Live.step (h : Live P s) (hrunning : Running P s) (hdelivers : DeliversPublished s.pool)
    (hsubscribed : Subscribed P s) (hrefused : NotRefused a) (hstep : s.step P a = some s') :
    Live P s' := by
  have hmove := step_move hrefused hstep
  have hrec := hrunning.pool.recorded
  obtain ⟨hcausal, hcontributing⟩ := contributing_record (g := .channel) hrunning hrefused hstep
    (by simp) (h.told hrunning) h.causal h.contributing
  refine ⟨hcausal, hcontributing, fun c => ?_⟩
  rcases gate_move hrunning hmove .channel with
    ⟨hquiet, hgoes⟩ | ⟨c₀, call, stage, rfl, hpassing, hpending, hview, hothers⟩
  · obtain ⟨made, hgoes⟩ := hgoes c
    exact (h.replicated c).goes (hrunning.served c) hsubscribed h.causal
      (record_of_quiet (by simp) hrec hstep hquiet) hgoes
  · have hrecord := record_of_passing (by simp) hrec hpassing
    have hpublished := (h.replicated c₀).publish hdelivers hview hrecord hpending
    by_cases hc : c = c₀
    · exact hc ▸ hpublished
    · obtain ⟨made, hgoes⟩ := hothers c hc
      obtain ⟨_, _, _, hreplica⟩ := hpublished
      refine (h.replicated c).publish_other hdelivers (hrunning.served c) hc
        ((hrunning.served c₀).call call hpassing.before).sent hgoes hrecord ?_
      rw [← hrecord]
      exact fun p hp q hq => hreplica.unique p (by simp [hp]) q (by simp [hq])

end Collaboration

end SyncEngine
