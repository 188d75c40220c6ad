import FleetControl.Cluster.Policy
import FleetControl.Pool.Basic
import FleetControl.Proofs.Json.Codec

/-!
Values that are kept in columns of a database read back as they were written. Structured values are
kept as JSON, and a database may arrange the members of an object as it likes; members that may be left
out are always written.
-/

namespace FleetControl

open Json

theorem PoolTag.ofText?_text (t : PoolTag) : PoolTag.ofText? t.text = some t := by
  cases t <;> rfl

theorem PoolType.ofText?_text (t : PoolType) : PoolType.ofText? t.text = some t := by
  cases t <;> rfl

instance : LawfulCodec Instance where
  exact i := membersExact_iff.2 (by simp)
  decode hf i := by
    refine decode_record hf ?_
    iterate 4 refine reads_bind (reads_required hf rfl) ?_
    refine reads_bind (reads_defaulted hf rfl) ?_
    exact reads_pure _ _ i

instance : LawfulCodec ConnectionPolicy where
  exact p := membersExact_iff.2 (by simp)
  decode hf p := by
    refine decode_record hf ?_
    iterate 2 refine reads_bind (reads_defaulted hf rfl) ?_
    exact reads_pure _ _ p

instance : LawfulCodec RetryPolicy where
  exact p := membersExact_iff.2 (by simp)
  decode hf p := by
    refine decode_record hf ?_
    iterate 2 refine reads_bind (reads_defaulted hf rfl) ?_
    exact reads_pure _ _ p

instance : LawfulCodec BufferPolicy where
  exact p := membersExact_iff.2 (by simp)
  decode hf p := by
    refine decode_record hf ?_
    iterate 3 refine reads_bind (reads_defaulted hf rfl) ?_
    exact reads_pure _ _ p

instance : LawfulCodec TimeoutPolicy where
  exact p := membersExact_iff.2 (by simp)
  decode hf p := by
    refine decode_record hf ?_
    iterate 5 refine reads_bind (reads_defaulted hf rfl) ?_
    exact reads_pure _ _ p

instance : LawfulCodec ClusterBasic where
  exact b := membersExact_iff.2 (by simp)
  decode hf b := by
    refine decode_record hf ?_
    iterate 4 refine reads_bind (reads_defaulted hf rfl) ?_
    exact reads_pure _ _ b

instance : LawfulCodec StickyType where
  exact _ := rfl
  decode hf t := constant?_str hf (by cases t <;> rfl)

instance : LawfulCodec HashStrategy where
  exact _ := rfl
  decode hf s := constant?_str hf (by cases s <;> rfl)

instance : LawfulCodec StickySessions where
  exact s := membersExact_iff.2 (by simp)
  decode hf s := by
    refine decode_record hf ?_
    iterate 3 refine reads_bind (reads_defaulted hf rfl) ?_
    exact reads_pure _ _ s

instance : LawfulCodec HealthCheckSchema where
  exact _ := rfl
  decode hf s := constant?_str hf (by cases s <;> rfl)

instance : LawfulCodec PassiveHealthCheck where
  exact c := membersExact_iff.2 (by simp)
  decode hf c := by
    refine decode_record hf ?_
    iterate 6 refine reads_bind (reads_defaulted hf rfl) ?_
    exact reads_pure _ _ c

end FleetControl
