import Bdb.Work.Kernel

/-! # Identifiers character by character

The check of an identifier looks at each of its characters. Calls on resources, whose keys have
punctuation, are stated with the check spelled out so, which evaluates on given texts.
-/
namespace Bdb.Work

variable {T : Type} [Seconds T]

def spelledId (s : String) : Bool :=
  bounded Char.isAlphanum (fun c => c.isAlphanum || decide (c ∈ "._:/-".toList)) 191 s

theorem idText_eq (s : String) : idText s = spelledId s := by
  unfold idText spelledId
  simp only [String.contains_char_eq]

def spelledText (value field : String) : Outcome Unit :=
  require (spelledId value = true) "invalid_identifier" (field ++ " is not a bounded identifier")

theorem text_eq (value field : String) : text value field = spelledText value field := by
  unfold text spelledText
  rw [idText_eq]

def spelled {α : Type} (o : Operation T α) (workId resourceKey : String) : Operation T α where
  checks := do
    spelledText workId "work_id"
    spelledText resourceKey "resource_key"
  operation := o.operation

theorem claimResource_eq (workId resourceKey leaseId : String) (fence : ℤ) (now : T) :
    claimResource workId resourceKey leaseId fence now =
      spelled (claimResource workId resourceKey leaseId fence now) workId resourceKey := by
  unfold spelled
  rw [← text_eq,← text_eq]
  rfl

theorem releaseResource_eq (workId resourceKey leaseId : String) (fence : ℤ) (now : T) :
    releaseResource workId resourceKey leaseId fence now =
      spelled (releaseResource workId resourceKey leaseId fence now) workId resourceKey := by
  unfold spelled
  rw [← text_eq,← text_eq]
  rfl

def spelledNext (s : WorkKernelStore T) (e : WorkEvent T) : WorkKernelStore T :=
  match e.call with
  | .releaseResource workId resourceKey leaseId fence =>
    (((spelled (releaseResource workId resourceKey leaseId fence e.now) workId resourceKey).answering (WorkAnswer.claim (T := T))).write
      e.failpoint s).1
  | _ => s.next e

theorem next_eq (s : WorkKernelStore T) (e : WorkEvent T) : s.next e = spelledNext s e := by
  obtain ⟨call,now,failpoint⟩ := e
  cases call with
  | releaseResource workId resourceKey leaseId fence =>
    simp only [WorkKernelStore.next,WorkEvent.perform,WorkCall.operation,spelledNext,← releaseResource_eq]
  | _ => rfl

end Bdb.Work
