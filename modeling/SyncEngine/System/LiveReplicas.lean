import SyncEngine.Client.ClientRga
import SyncEngine.Crdt.Convergence
import SyncEngine.Lib.OrderedBroadcast

/-!
# A replica that reads a log

The replica of one site, the log of everything that was published, and the two queues between
them: what the site has made and not yet published, and what has come out of the log and waits
for the replica.

`LiveReplica` says how the four fit together.  The replica is a causally valid replay of some
operations (`applied`): of all it has made, and of all that it has read.  Each of the five things
that can happen keeps this, and the next waiting operation always finds what it builds on
(`LiveReplica.needs_met`), as long as the log is causal.
-/

namespace SyncEngine

open ReplicatedList CausalReplay OrderedBroadcast

/-- How a replica has come about. -/
structure LiveReplica (siteId : JSString) (log pending : List RGAOperation) (delivered : Nat)
    (waiting applied : List RGAOperation) (doc : ClientRGADocument) : Prop where
  replays : Replays applied doc.cells
  /-- What it has applied was published, or it is on its way there. -/
  applied_known : ∀ p ∈ applied, p ∈ log ++ pending
  /-- It has applied what it has made. -/
  pending_applied : ∀ p ∈ pending, p ∈ applied
  reads : Reads log delivered waiting (· ∈ applied)
  /-- Its clock is past all UIDs that it has made. -/
  clock_ge : ∀ op ∈ log ++ pending, ∀ u, op.inserted = some u → u.siteId = siteId →
    u.clock ≤ doc.clock
  unique : UniqueGivers RGAOperation.gives (log ++ pending)
  siteId_eq : doc.siteId = siteId

namespace LiveReplica

variable {siteId : JSString} {log pending waiting applied : List RGAOperation} {n k : Nat}
  {doc doc' : ClientRGADocument} {op : RGAOperation} {e : Edit UID JsValue}

lemma start (hcells : doc.cells = []) (hsite : doc.siteId = siteId) :
    LiveReplica siteId [] [] 0 [] [] doc where
  replays := hcells ▸ .nil
  applied_known := by simp
  pending_applied := by simp
  reads := reads_of_done (by simp)
  clock_ge := by simp
  unique := by simp [UniqueGivers]
  siteId_eq := hsite

lemma needs_met (h : LiveReplica siteId log pending n (op :: waiting) applied doc)
    (hcausal : CausallyValid log) : ∀ u ∈ op.needs, u ∈ ids doc.cells := by
  intro u hu
  obtain ⟨p, -, hp, hgives⟩ := h.reads.needs_met hcausal u hu
  exact h.replays.mem_ids.mpr ⟨p, hp, hgives⟩

lemma make (h : LiveReplica siteId log pending n waiting applied doc)
    (hmade : ClientRGADocument.Made doc op doc') :
    LiveReplica siteId log (pending ++ [op]) n waiting (applied ++ [op]) doc' where
  replays := by
    obtain ⟨e, he⟩ := exists_edit hmade.isEdit
    rw [hmade.cells_eq e he]
    exact h.replays.apply he hmade.needs_mem
  applied_known p hp := by
    rw [← List.append_assoc]
    exact (List.mem_append.mp hp).elim (fun hp => List.mem_append_left _ (h.applied_known p hp))
      fun hp => List.mem_append_right _ hp
  pending_applied p hp :=
    (List.mem_append.mp hp).elim (fun hp => List.mem_append_left _ (h.pending_applied p hp))
      fun hp => List.mem_append_right _ hp
  reads := h.reads.mono fun p hp => List.mem_append_left _ hp
  clock_ge p hp u hu hsite := by
    rw [← List.append_assoc] at hp
    rcases List.mem_append.mp hp with hp | hp
    · exact (h.clock_ge p hp u hu hsite).trans hmade.clock_le
    · rw [List.mem_singleton.mp hp] at hu
      exact hmade.inserted_le u hu
  unique := by
    -- the new UID carries a clock that none of the site has carried before
    have hfresh : ∀ p ∈ log ++ pending, ∀ u, u ∈ p.gives → u ∉ op.gives := by
      intro p hp u hu hop
      obtain rfl := hmade.inserted_eq u hop
      have hle := h.clock_ge p hp _ hu h.siteId_eq
      exact absurd hle (Nat.not_succ_le_self _)
    rw [← List.append_assoc]
    intro p hp q hq u hu hu'
    rcases List.mem_append.mp hp with hp | hp <;> rcases List.mem_append.mp hq with hq | hq
    · exact h.unique p hp q hq u hu hu'
    · exact absurd (List.mem_singleton.mp hq ▸ hu') (hfresh p hp u hu)
    · exact absurd (List.mem_singleton.mp hp ▸ hu) (hfresh q hq u hu')
    · rw [List.mem_singleton.mp hp, List.mem_singleton.mp hq]
  siteId_eq := hmade.siteId_eq.trans h.siteId_eq

/-- The next entry of the log arrives, once or several times. -/
lemma deliver (h : LiveReplica siteId log pending n waiting applied doc) (hop : log[n]? = some op)
    (hk : 0 < k) :
    LiveReplica siteId log pending (n + 1) (waiting ++ List.replicate k op) applied doc :=
  { h with reads := h.reads.deliver hop hk }

/-- The first waiting operation is applied. -/
lemma apply (h : LiveReplica siteId log pending n (op :: waiting) applied doc)
    (hcausal : CausallyValid log) (he : op.edit? = some e) (hcells : doc'.cells = e.step doc.cells)
    (hclock : doc.clock ≤ doc'.clock) (hsite : doc'.siteId = doc.siteId) :
    LiveReplica siteId log pending n waiting (applied ++ [op]) doc' where
  replays := hcells ▸ h.replays.apply he (h.needs_met hcausal)
  applied_known p hp := by
    rcases List.mem_append.mp hp with hp | hp
    · exact h.applied_known p hp
    · rw [List.mem_singleton.mp hp]
      exact List.mem_append_left _ (h.reads.mem_log (List.mem_cons_self ..))
  pending_applied p hp := List.mem_append_left _ (h.pending_applied p hp)
  reads := h.reads.handle (fun p hp => List.mem_append_left _ hp) (by simp)
  clock_ge p hp u hu hsite := (h.clock_ge p hp u hu hsite).trans hclock
  unique := h.unique
  siteId_eq := hsite.trans h.siteId_eq

lemma publish (h : LiveReplica siteId log (op :: pending) n waiting applied doc)
    (hn : n ≤ log.length) : LiveReplica siteId (log ++ [op]) pending n waiting applied doc := by
  have hsame : log ++ [op] ++ pending = log ++ op :: pending := by simp
  exact ⟨h.replays, hsame ▸ h.applied_known, fun p hp =>
    h.pending_applied p (List.mem_cons_of_mem _ hp), h.reads.append hn [op], hsame ▸ h.clock_ge,
    hsame ▸ h.unique, h.siteId_eq⟩

/-- Another site publishes an operation. -/
lemma publish_other (h : LiveReplica siteId log pending n waiting applied doc) (hn : n ≤ log.length)
    (hunique : UniqueGivers RGAOperation.gives (log ++ [op]))
    (hforeign : ∀ u, op.inserted = some u → u.siteId ≠ siteId)
    (hown : ∀ p ∈ pending, ∀ u, p.inserted = some u → u.siteId = siteId) :
    LiveReplica siteId (log ++ [op]) pending n waiting applied doc where
  replays := h.replays
  applied_known p hp := by
    rcases List.mem_append.mp (h.applied_known p hp) with hp | hp <;> simp [hp]
  pending_applied := h.pending_applied
  reads := h.reads.append hn [op]
  clock_ge p hp u hu hsite := by
    rcases List.mem_append.mp hp with hp | hp
    · rcases List.mem_append.mp hp with hp | hp
      · exact h.clock_ge p (by simp [hp]) u hu hsite
      · exact absurd hsite (hforeign u (List.mem_singleton.mp hp ▸ hu))
    · exact h.clock_ge p (by simp [hp]) u hu hsite
  unique := by
    have hapart : ∀ p ∈ log ++ [op], ∀ q ∈ pending, ∀ u, u ∈ p.gives → u ∈ q.gives → p = q := by
      intro p hp q hq u hu hu'
      rcases List.mem_append.mp hp with hp | hp
      · exact h.unique p (by simp [hp]) q (by simp [hq]) u hu hu'
      · exact absurd (hown q hq u hu') (hforeign u (List.mem_singleton.mp hp ▸ hu))
    intro p hp q hq u hu hu'
    rcases List.mem_append.mp hp with hp | hp <;> rcases List.mem_append.mp hq with hq | hq
    · exact hunique p hp q hq u hu hu'
    · exact hapart p hp q hq u hu hu'
    · exact (hapart q hq p hp u hu' hu).symm
    · exact h.unique p (by simp [hp]) q (by simp [hq]) u hu hu'
  siteId_eq := h.siteId_eq

/-! ## Convergence -/

/-- A replica that has read everything, and has nothing to publish, has applied what is in the
log. -/
lemma mem_applied (h : LiveReplica siteId log [] log.length [] applied doc) (p : RGAOperation) :
    p ∈ applied ↔ p ∈ log := by
  refine ⟨fun hp => by simpa using h.applied_known p hp, fun hp => ?_⟩
  have hread : p ∈ log.take log.length := by rwa [List.take_length]
  exact (h.reads.mem_or_done hread).resolve_left (by simp)

/-- **Convergence**: such a replica holds what any other causally valid replay of the same
operations makes of nothing. -/
theorem cells_unique (h : LiveReplica siteId log [] log.length [] applied doc)
    {ops : List RGAOperation} {cells : List (Cell UID JsValue)} (hreplays : Replays ops cells)
    (hmem : ∀ p, p ∈ ops ↔ p ∈ log) : doc.cells = cells := by
  refine h.replays.cells_unique hreplays (fun p => (h.mem_applied p).trans (hmem p).symm) ?_
  exact fun p hp q hq => h.unique p (h.applied_known p hp) q (h.applied_known q hq)

end LiveReplica

end SyncEngine
