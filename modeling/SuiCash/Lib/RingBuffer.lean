import Mathlib.Data.List.Induction

/-!
# A ring of a fixed length

A ring keeps its newest entries, the newest first.  A push puts a batch of entries in front, and
as many of the oldest are gone; a batch that is in front already is not pushed.

`pushed_foldl` reads a run of pushes as one push: of what all the batches bring, in the order of
a ring, less the batches that were there.
-/

namespace RingBuffer

variable {α : Type}

/-- The ring with a batch in front. -/
def push [DecidableEq α] (ring batch : List α) : List α :=
  if ring.take batch.length = batch then ring else (batch ++ ring).take ring.length

/-- A ring with some of these entries in front, in their order. -/
def Pushed (entries ring ring' : List α) : Prop :=
  ∃ pushed, pushed.Sublist entries ∧ ring' = (pushed ++ ring).take ring.length

theorem Pushed.refl (ring : List α) : Pushed [] ring ring :=
  ⟨[], List.Sublist.refl _, (List.take_length).symm⟩

theorem Pushed.length_eq {entries ring ring' : List α} (h : Pushed entries ring ring') :
    ring'.length = ring.length := by
  obtain ⟨pushed, -, rfl⟩ := h
  rw [List.length_take, List.length_append]
  omega

theorem Pushed.trans {entries entries' r s t : List α} (h : Pushed entries r s)
    (h' : Pushed entries' s t) : Pushed (entries' ++ entries) r t := by
  have hlen := h.length_eq
  obtain ⟨pushed, hsub, rfl⟩ := h
  obtain ⟨pushed', hsub', rfl⟩ := h'
  refine ⟨pushed' ++ pushed, hsub'.append hsub, ?_⟩
  rw [hlen, List.append_assoc]
  generalize pushed ++ r = l
  rw [List.take_append, List.take_append, List.take_take, Nat.min_eq_left (Nat.sub_le _ _)]

variable [DecidableEq α]

@[simp] theorem push_nil (ring : List α) : push ring [] = ring := if_pos rfl

theorem pushed_push (ring batch : List α) : Pushed batch ring (push ring batch) := by
  rw [push]
  split
  · exact ⟨[], List.nil_sublist _, (List.take_length).symm⟩
  · exact ⟨batch, List.Sublist.refl _, rfl⟩

/-- **A run of pushes.** -/
theorem pushed_foldl (batches : List (List α)) (ring : List α) :
    Pushed batches.reverse.flatten ring (batches.foldl push ring) := by
  induction batches using List.reverseRecOn with
  | nil => exact .refl ring
  | append_singleton batches batch ih =>
    rw [List.foldl_append, List.reverse_append, List.reverse_singleton, List.singleton_append,
      List.flatten_cons]
    exact ih.trans (pushed_push _ _)

end RingBuffer
