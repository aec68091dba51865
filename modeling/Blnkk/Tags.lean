import Blnkk.Posts

/-!
The tables of `acts_as_taggable_on` beside those of a tenant database. A tag
is what a community calls a group; users follow it and requests are posted in it.
-/

namespace Blnkk

open Relational

inductive Taggable where
  | user (id : ℕ)
  | request (id : ℕ)
  deriving DecidableEq

@[ext]
structure Tag where
  id : ℕ
  name : String
  displayName : Option String
  icon : Option String := some "hash"
  requestId : Option ℕ := none
  userCount : ℤ := 0
  deriving DecidableEq

structure Tagging where
  tagId : ℕ
  taggable : Taggable
  deriving DecidableEq

abbrev Tagging.index (t : Tagging) : ℕ × Taggable := (t.tagId, t.taggable)

structure Site where
  db : Db
  tags : Table Tag.id
  taggings : Table Tagging.index

def Site.findTag (P : Platform) (s : Site) (name : String) : Option Tag :=
  s.tags.rows.find? (fun tag => P.collate tag.name name)

end Blnkk
