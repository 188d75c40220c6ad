import FleetControl.Proofs.Isolation
import FleetControl.Proofs.RowLocks

/-!
Who puts load matrices, and under which locks. Updating a cluster and changing what is mounted on it
lock the cluster before its matrix is read; creating a cluster puts the matrix of one that nobody else
can see yet. Creating or deleting a BFE cluster rewrites the matrices of all clusters and locks none.
-/

namespace FleetControl

open Sql Store

def Guarded (d : List Line) : Prop :=
  ∀ before l after k, d = before ++ l :: after → l.mark = .write k → Born k before ∨ Held k before

def KeepsToLock (d : List Line) : Prop :=
  ∀ before l after k, d = before ++ l :: after → l.mark = .write k → ¬ Born k before →
    ∀ l' ∈ d, ∀ j, l'.mark = .lock j → j = k

def Faithful (d : List Line) : Prop :=
  ∀ l ∈ d, ∀ j k, l.mark = .look j → l.id? = some k → k = j

variable {d : List Line}

theorem Sound.guarded_iff (h : Sound d) : Guarded d ↔ KeepsToLock d := by
  constructor
  · intro hguarded before l after k hsplit hl hborn l' hl' j hj
    rcases hguarded before l after k hsplit hl with hb | ⟨before', lock, after', hbefore, hlock, -⟩
    · exact absurd hb hborn
    · refine h.locks l' hl' lock ?_ j k hj hlock
      simp [hsplit, hbefore]
  · intro hkeeps before l after k hsplit hl
    by_cases hborn : Born k before
    · exact Or.inl hborn
    rcases h.writes before l after k hsplit hl with hb | ⟨j, hheld, -⟩
    · exact Or.inl hb
    obtain ⟨before', lock, after', hbefore, hlock, hreads⟩ := hheld
    obtain rfl : j = k := by
      refine hkeeps before l after k hsplit hl hborn lock ?_ j hlock
      simp [hsplit, hbefore]
    exact Or.inr (HeldFirst.held ⟨before', lock, after', hbefore, hlock, hreads⟩)

/-- Where the database is faithful, the cluster found under the lock is the locked one. -/
theorem Sound.keepsToLock (h : Sound d) (hd : Faithful d) : KeepsToLock d := by
  intro before l after k hsplit hl hborn l' hl' j' hj'
  rcases h.writes before l after k hsplit hl with hb | ⟨j, hheld, look, hlook, hmark, hid⟩
  · exact absurd hb hborn
  obtain rfl : k = j := hd look (by simp [hsplit, hlook]) j k hmark hid
  obtain ⟨before', lock, after', hbefore, hlock, -⟩ := hheld
  refine h.locks l' hl' lock ?_ j' k hj' hlock
  simp [hsplit, hbefore]

theorem guarded_of_no_write (h : ∀ l ∈ d, ∀ k, l.mark ≠ .write k) : Guarded d ∧ KeepsToLock d := by
  have hnone {before after : List Line} {l : Line} {k : Int} (hsplit : d = before ++ l :: after)
      (hl : l.mark = .write k) : False := h l (by simp [hsplit]) k hl
  exact ⟨fun _ _ _ _ hsplit hl => (hnone hsplit hl).elim,
    fun _ _ _ _ hsplit hl => (hnone hsplit hl).elim⟩

/-- Where no row is locked and no cluster is made, matrices are guarded only if none is put. -/
theorem guarded_iff_no_write (h : ∀ l ∈ d, (∀ j, l.mark ≠ .lock j) ∧ l.mark ≠ .birth) :
    (Guarded d ↔ ∀ l ∈ d, ∀ k, l.mark ≠ .write k) ∧ KeepsToLock d := by
  refine ⟨⟨fun hguarded l hl k hk => ?_, fun hnone => (guarded_of_no_write hnone).1⟩, ?_⟩
  · obtain ⟨before, after, hsplit⟩ := List.append_of_mem hl
    rcases hguarded before l after k hsplit hk with
      ⟨b, hb, hbirth, -⟩ | ⟨_, lock, _, hbefore, hlock, -⟩
    · exact (h b (by simp [hsplit, hb])).2 hbirth
    · exact (h lock (by simp [hsplit, hbefore])).1 k hlock
  · intro before l after k hsplit hl hborn l' hl' j hj
    exact absurd hj ((h l' hl').1 j)

/-! The managers that put matrices. -/

namespace Control

open Store.Work

theorem requireProduct_follows (name : String) :
    (requireProduct name).Follows .fresh fun _ g => g = .fresh := by
  simp [requireProduct, Stage.Allows, Request.mark, Stage.after]

theorem requireCluster_follows (p : Product) (name : String) :
    (requireCluster p name).Follows .fresh fun _ g => g = .fresh := by
  simp [requireCluster, Stage.Allows, Request.mark, Stage.after]

theorem requireLockedCluster_follows (p : Product) (name : String) :
    (requireLockedCluster p name).Follows .fresh fun record g => g.target? = some record.id.val := by
  refine follows_bind.2 ((requireCluster_follows p name).imp fun record g hg => ?_)
  subst hg
  refine ⟨trivial, fun _ => ⟨rfl, fun found => ?_⟩⟩
  refine follows_require.2 fun again hagain => ?_
  obtain ⟨rest, rfl⟩ := List.head?_eq_some_iff.1 hagain
  rfl

theorem follows_locked {α : Type} (product cluster : String)
    {work : Product → Cluster.Record → Work α}
    (hwork : ∀ owner record (g : Stage), g.target? = some record.id.val →
      (work owner record).Only g.Keeps) :
    (Operation.update do
      let owner ← requireProduct product
      let record ← requireLockedCluster owner cluster
      work owner record).Follows .fresh := by
  refine follows_bind.2 ((requireProduct_follows product).imp fun owner g hg => ?_)
  subst hg
  refine follows_bind.2 ((requireLockedCluster_follows owner cluster).imp fun record g hg => ?_)
  exact (hwork owner record g hg).follows fun _ => trivial

namespace Clusters

variable {g : Stage} {product : ProductId} {record : Cluster.Record}

theorem keeps_putLoadMatrix (hg : g.target? = some record.id.val) (matrix : LoadMatrix) :
    g.Keeps (.putLoadMatrix record.id product matrix) := by
  refine Stage.keeps_of_target hg nofun fun i hi => ?_
  cases hi
  rfl

theorem update_follows (ignore : Bool) (product cluster : String) (change : Cluster.Change) :
    (update ignore product cluster change).Follows .fresh := by
  rw [update_eq]
  apply Operation.follows_guarded
  apply Operation.follows_guarded
  refine follows_locked product cluster fun owner record g hg => ?_
  have hupdate (record : Cluster.Record) : g.Keeps (.updateCluster record) :=
    Stage.keeps_of_target hg nofun nofun
  exact updateLocked_asks (Stage.allowsReads_of_target hg) ignore change owner record
    (keeps_putLoadMatrix hg) hupdate

theorem rebind_follows (ignore : Bool) (product cluster : String) (target : List String) :
    (rebind ignore product cluster target).Follows .fresh := by
  rw [rebind_eq]
  apply Operation.follows_guarded
  refine follows_locked product cluster fun owner record g hg => ?_
  have hbind (id : ClusterId) (ids : List SubClusterId) : g.Keeps (.bindSubClusters id ids) :=
    Stage.keeps_of_target hg nofun nofun
  have hunbind (ids : List SubClusterId) : g.Keeps (.unbindSubClusters ids) :=
    Stage.keeps_of_target hg nofun nofun
  exact rebindLocked_asks (Stage.allowsReads_of_target hg) ignore target owner record
    (keeps_putLoadMatrix hg) hbind hunbind

theorem create_follows (ignore : Bool) (product : String) (proposal : Cluster.Proposal) :
    (create ignore product proposal).Follows .loose := by
  have hP := Stage.allowsReads_loose
  apply Operation.follows_guarded
  apply Operation.follows_guarded
  apply Operation.follows_guarded
  apply Operation.follows_guarded
  refine follows_bind.2 ((requireProduct_asks hP product).follows fun owner => ?_)
  refine follows_bind.2 ((only_ask (hP _ rfl)).follows fun _ => ?_)
  refine follows_bind.2 ((only_refuseIf _ _).follows fun _ => ?_)
  refine follows_bind.2 ((requireBindable_asks hP ignore owner _).follows fun subClusters => ?_)
  refine follows_bind.2 ((bfeClusterNames_fetches.imp hP).follows fun bfes => ?_)
  refine follows_bind.2 ((only_ofExcept _).follows fun _ => ?_)
  refine follows_bind.2 (follows_ask.2 ⟨trivial, fun record => ?_⟩)
  have hg : (Stage.born record.id.val).target? = some record.id.val := rfl
  refine Only.follows (g := .born record.id.val) ?_ fun _ => trivial
  refine only_bind (only_ask (Stage.keeps_of_target hg nofun nofun)) fun _ => ?_
  refine only_bind (only_ask (keeps_putLoadMatrix hg _)) fun _ => ?_
  exact assembleCluster_asks (Stage.allowsReads_of_target hg) ignore record

end Clusters
end Control

/-! What a call says to the database. -/

namespace Call

open Control Store.Work

def changesBfeClusters : Call → Bool
  | createBfeCluster _ | deleteBfeCluster _ => true
  | _ => false

def dialogue (settings : ControlSettings) (now : Instant) (c : Call) (replies : List Reply)
    (refused : List String) : List Line :=
  (Session.start replies refused).dialogue
    (Database.perform (c.operation settings now) (.start replies refused)).2.sent

variable (settings : ControlSettings) (now : Instant) {c : Call} (replies : List Reply)
  (refused : List String)

theorem marks_dialogue {Q : Mark → Prop} (hc : (c.operation settings now).Asks fun r => Q r.mark)
    (hQ : Q .other) : ∀ l ∈ c.dialogue settings now replies refused, Q l.mark := by
  intro l hl
  obtain ⟨sts, hsent, hsts⟩ := (Database.sends_perform hc hQ (.start replies refused)).sent
  have hmem := Session.statement_mem_of_mem_dialogue hl
  rw [hsent] at hmem
  exact hsts _ hmem

theorem sound_dialogue {g : Stage} (hc : (c.operation settings now).Follows g)
    (hg : g.Allows .other) (hs : g.Shows []) : Sound (c.dialogue settings now replies refused) := by
  obtain ⟨d, hd, hsound⟩ := hc.sound hg hs (.start replies refused)
  rw [dialogue, ← hd.eq_dialogue]
  exact hsound

theorem asks_no_write (hc : c.putsMatrix = false) :
    (c.operation settings now).Asks fun r => ∀ k, r.mark ≠ .write k := by
  cases hledger : c.concernsLedger with
  | false =>
    refine operation_asks settings now hledger fun r _ hput => mark_ne_write ?_
    cases hr : r.putsMatrix with
    | false => rfl
    | true =>
      rw [hput hr] at hc
      cases hc
  | true =>
    have hread : AllowsReads fun r => ∀ k, r.mark ≠ .write k :=
      fun r hr => mark_ne_write (allowsReads_keeping r hr)
    cases c with
    | exportTopic topic last =>
      exact Export.exportTopic_asks hread (fun _ => nofun) (fun _ => nofun) (fun _ => nofun) _ now
        topic last
    | latestVersion topic | versionHistory topic => exact ⟨fun _ => nofun, fun _ => trivial⟩
    | _ => cases hledger

theorem asks_no_lock (hc : c.changesBfeClusters = true) :
    (c.operation settings now).Asks fun r => (∀ j, r.mark ≠ .lock j) ∧ r.mark ≠ .birth := by
  have hread : AllowsReads fun r => (∀ j, r.mark ≠ .lock j) ∧ r.mark ≠ .birth := by
    intro r hr
    obtain ⟨hlock, -, hbirth⟩ := mark_of_fetches hr
    exact ⟨hlock, hbirth⟩
  cases c with
  | createBfeCluster proposal =>
    exact BfeClusters.create_asks hread (fun _ _ _ => ⟨nofun, nofun⟩) (fun _ => ⟨nofun, nofun⟩)
      proposal
  | deleteBfeCluster name =>
    exact BfeClusters.delete_asks hread (fun _ _ _ => ⟨nofun, nofun⟩) (fun _ => ⟨nofun, nofun⟩) name
  | _ => cases hc

theorem dialogue_sound (hput : c.putsMatrix = true) (hc : c.changesBfeClusters = false) :
    Sound (c.dialogue settings now replies refused) := by
  have hfresh : Stage.fresh.Shows [] := Stage.shows_nil rfl rfl
  have hloose : Stage.loose.Shows [] := Stage.shows_nil rfl rfl
  cases c with
  | createCluster product proposal =>
    exact sound_dialogue settings now replies refused (Clusters.create_follows _ product proposal)
      trivial hloose
  | updateCluster product cluster change =>
    exact sound_dialogue settings now replies refused
      (Clusters.update_follows _ product cluster change) trivial hfresh
  | rebindSubClusters product cluster names =>
    exact sound_dialogue settings now replies refused
      (Clusters.rebind_follows _ product cluster names) trivial hfresh
  | createBfeCluster | deleteBfeCluster => cases hc
  | _ => cases hput

/-- The calls that change which BFE clusters there are keep to the locks only if they put no matrix;
the others keep to them as long as the database does not take one cluster for another. -/
theorem guarded_dialogue_iff (c : Call) :
    (Guarded (c.dialogue settings now replies refused) ↔
      (c.changesBfeClusters = true →
        ∀ l ∈ c.dialogue settings now replies refused, ∀ k, l.mark ≠ .write k) ∧
      KeepsToLock (c.dialogue settings now replies refused)) ∧
    (Faithful (c.dialogue settings now replies refused) →
      KeepsToLock (c.dialogue settings now replies refused)) := by
  cases hput : c.putsMatrix with
  | false =>
    have hnone := marks_dialogue (Q := fun m => ∀ k, m ≠ .write k) settings now replies refused
      (asks_no_write settings now hput) nofun
    obtain ⟨hguarded, hkeeps⟩ := guarded_of_no_write hnone
    exact ⟨⟨fun _ => ⟨fun _ => hnone, hkeeps⟩, fun _ => hguarded⟩, fun _ => hkeeps⟩
  | true =>
    cases hc : c.changesBfeClusters with
    | true =>
      have hnone := marks_dialogue (Q := fun m => (∀ j, m ≠ .lock j) ∧ m ≠ .birth) settings now
        replies refused (asks_no_lock settings now hc) ⟨nofun, nofun⟩
      obtain ⟨hguarded, hkeeps⟩ := guarded_iff_no_write hnone
      exact ⟨⟨fun h => ⟨fun _ => hguarded.1 h, hkeeps⟩, fun h => hguarded.2 (h.1 rfl)⟩,
        fun _ => hkeeps⟩
    | false =>
      have hsound := dialogue_sound settings now replies refused hput hc
      refine ⟨⟨fun h => ⟨nofun, hsound.guarded_iff.1 h⟩, fun h => hsound.guarded_iff.2 h.2⟩, ?_⟩
      exact hsound.keepsToLock

def bfeClusterRow : Row :=
  [("id", .int8 3), ("name", .text "bfe-1"), ("pool_id", .int8 2), ("capacity", .int8 0),
    ("enabled", .bool true)]

def clusterRow : Row :=
  [("id", .int8 7), ("name", .text "front"), ("product_id", .int8 5), ("description", .text ""),
    ("basic", .json (.obj [])), ("sticky_sessions", .json (.obj [])),
    ("passive_health_check", .json (.obj []))]

example :
    let product : Row := [("id", .int8 5), ("name", .text "shop"), ("description", .text ""),
      ("mail_list", .json (.arr [])), ("contact", .json (.arr []))]
    let mounted : Row := [("id", .int8 8), ("name", .text "east"), ("product_id", .int8 5),
      ("description", .text ""), ("pool_id", .int8 2), ("cluster_id", .int8 7)]
    let change : Cluster.Change := ⟨none, none, none, none, some (.defaultFor ["bfe-1"] ["east"])⟩
    ((updateCluster "shop" "front" change).dialogue {} ⟨0⟩ [.rows [product], .rows [clusterRow],
        .rows [clusterRow], .rows [clusterRow], .rows [mounted], .rows [bfeClusterRow],
        .affected 1] []).map Line.mark =
      [.other, .other, .other, .lock 7, .look 7, .read 7, .other, .write 7, .other] := by
  decide +kernel

def oneCluster : List Reply :=
  let matrix : Reply := .rows [[("lb_matrix",
    .text "\x7b\"bfe-1\":\x7b\"east\":100\x7d,\"bfe-2\":\x7b\"east\":100\x7d\x7d")]]
  [.rows [bfeClusterRow], .rows [clusterRow], matrix, matrix, .affected 1, .affected 1]

/-- The matrix is read, changed and put back, and the cluster is never locked. -/
theorem deleteBfeCluster_unguarded :
    ((deleteBfeCluster "bfe-1").dialogue {} ⟨0⟩ oneCluster []).map Line.mark =
        [.other, .other, .other, .read 7, .write 7, .other, .other] ∧
      ¬ Guarded ((deleteBfeCluster "bfe-1").dialogue {} ⟨0⟩ oneCluster []) := by
  have hmarks : ((deleteBfeCluster "bfe-1").dialogue {} ⟨0⟩ oneCluster []).map Line.mark =
      [.other, .other, .other, .read 7, .write 7, .other, .other] := by decide +kernel
  refine ⟨hmarks, fun hguarded => ?_⟩
  generalize (deleteBfeCluster "bfe-1").dialogue {} ⟨0⟩ oneCluster [] = d at hmarks hguarded
  have hmem {l : Line} (hl : l ∈ d) : l.mark ∈ d.map Line.mark := List.mem_map_of_mem hl
  have hnone : ∀ l ∈ d, (∀ j, l.mark ≠ .lock j) ∧ l.mark ≠ .birth := by
    intro l hl
    have hl := hmem hl
    rw [hmarks] at hl
    constructor
    · rintro j hj
      simp [hj] at hl
    · intro hbirth
      simp [hbirth] at hl
  obtain ⟨l, hl, hwrite⟩ : ∃ l ∈ d, l.mark = .write 7 := by
    rw [← List.mem_map, hmarks]
    simp
  exact (guarded_iff_no_write hnone).1.1 hguarded l hl 7 hwrite

end Call
end FleetControl
