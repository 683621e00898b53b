import Bdb.Base.Outcome
import Mathlib.Data.List.AList

/-! # Objects and refs of a git repository

Objects are named by digests of what they hold, and an object that is there is never written
again. A ref is moved by a compare and swap against the value it is expected to have.
-/
namespace Bdb.Effects

open AList

abbrev Oid := String

structure TreeEntry where
  path : String
  objectOid : Oid
  mode : String
deriving DecidableEq

structure CommitMetadataPolicy where
  message : String
  authorName : String
  authorEmail : String
  committerName : String
  committerEmail : String
  timestamp : String
deriving DecidableEq

structure CommitObject where
  tree : Oid
  parents : List Oid
  metadata : CommitMetadataPolicy
deriving DecidableEq

/-- The digests that name blobs, trees and commits. -/
structure GitNames where
  blob : List UInt8 → Oid
  tree : List TreeEntry → Oid
  commit : CommitObject → Oid

structure GitObjects where
  trees : AList fun _ : Oid => List TreeEntry
  commits : AList fun _ : Oid => CommitObject

/-- An entry that is written unless its key is taken. -/
def putNew {β : Type} (l : AList fun _ : Oid => β) (k : Oid) (b : β) : AList fun _ : Oid => β :=
  if k ∈ l then l else l.insert k b

namespace GitObjects

variable (names : GitNames) {g : GitObjects}

def writeTree (g : GitObjects) (entries : List TreeEntry) : GitObjects × Oid :=
  ({ g with trees := putNew g.trees (names.tree entries) entries },names.tree entries)

def writeCommit (g : GitObjects) (c : CommitObject) : GitObjects × Oid :=
  ({ g with commits := putNew g.commits (names.commit c) c },names.commit c)

def Acyclic (g : GitObjects) : Prop := ∀ oid c, g.commits.lookup oid = some c → oid ∉ c.parents

/-- What is there stays as it is. -/
structure Extends (g g' : GitObjects) : Prop where
  trees : ∀ oid entries, g.trees.lookup oid = some entries → g'.trees.lookup oid = some entries
  commits : ∀ oid c, g.commits.lookup oid = some c → g'.commits.lookup oid = some c

theorem Extends.refl (g : GitObjects) : g.Extends g := ⟨fun _ _ => id,fun _ _ => id⟩

end GitObjects

section

variable {β : Type} {l : AList fun _ : Oid => β} {k k' : Oid} {b b' : β}

theorem lookup_putNew_of_some (h : l.lookup k' = some b') : (putNew l k b).lookup k' = some b' := by
  unfold putNew
  split
  · exact h
  · rename_i hk
    rw [lookup_insert_ne,h]
    rintro rfl
    exact hk (lookup_isSome.mp (by rw [h]; rfl))

theorem lookup_putNew (h : (putNew l k b).lookup k' = some b') : l.lookup k' = some b' ∨ k' = k ∧ b' = b := by
  unfold putNew at h
  split at h
  · exact .inl h
  · by_cases hk : k' = k
    · subst hk
      rw [lookup_insert] at h
      exact .inr ⟨rfl,(Option.some.inj h).symm⟩
    · rw [lookup_insert_ne hk] at h
      exact .inl h

end

namespace GitObjects

variable {names : GitNames} {g : GitObjects}

theorem writeTree_extends (entries : List TreeEntry) : g.Extends (g.writeTree names entries).1 :=
  ⟨fun _ _ h => lookup_putNew_of_some h,fun _ _ => id⟩

theorem writeCommit_extends (c : CommitObject) : g.Extends (g.writeCommit names c).1 :=
  ⟨fun _ _ => id,fun _ _ h => lookup_putNew_of_some h⟩

theorem writeTree_commits (entries : List TreeEntry) : (g.writeTree names entries).1.commits = g.commits := rfl

theorem Acyclic.writeCommit (h : g.Acyclic) {c : CommitObject} (hparents : ∀ p ∈ c.parents, p ∈ g.commits) :
    (g.writeCommit names c).1.Acyclic := by
  intro oid found hfound
  by_cases hold : g.commits.lookup oid = some found
  · exact h oid found hold
  · rcases lookup_putNew hfound with hthere | ⟨rfl,rfl⟩
    · exact absurd hthere hold
    · intro hself
      obtain ⟨old,hthere⟩ := Option.isSome_iff_exists.mp (lookup_isSome.mpr (hparents _ hself))
      have hkept := lookup_putNew_of_some (k := names.commit found) (b := found) hthere
      have hfound' : (putNew g.commits (names.commit found) found).lookup (names.commit found) = some found := hfound
      rw [hkept] at hfound'
      exact hold (hthere.trans hfound')

end GitObjects

/-! ## Refs -/

/-- A ref of a repository. -/
structure RefPlace where
  repository : String
  ref : String
deriving DecidableEq

abbrev Refs := AList fun _ : RefPlace => Oid

namespace Refs

def set (refs : Refs) (p : RefPlace) : Option Oid → Refs
  | some oid => refs.insert p oid
  | none => refs.erase p

theorem lookup_set (refs : Refs) (p q : RefPlace) (v : Option Oid) :
    (refs.set p v).lookup q = if q = p then v else refs.lookup q := by
  cases v with
  | none =>
    unfold set
    by_cases hq : q = p
    · subst hq
      rw [lookup_erase,if_pos rfl]
    · rw [lookup_erase_ne hq,if_neg hq]
  | some oid =>
    unfold set
    by_cases hq : q = p
    · subst hq
      rw [lookup_insert,if_pos rfl]
    · rw [lookup_insert_ne hq,if_neg hq]

/-- The ref is moved when it is as expected. -/
def updateRef (refs : Refs) (p : RefPlace) (new : Oid) (old : Option Oid) : Refs × Bool :=
  if refs.lookup p = old then (refs.set p (some new),true) else (refs,false)

end Refs

end Bdb.Effects
