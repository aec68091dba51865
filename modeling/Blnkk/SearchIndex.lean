import Blnkk.Lib.Concurrent
import Blnkk.Lib.Table
import Blnkk.Text

/-!
The search index of users and the processes that change it or what it is made
from: requests that save a profile, location jobs and the workers of the index
queue. One turn of a process is one statement of the database, of Redis or of the
search server.
-/

namespace Blnkk

open Relational

structure Location where
  city : Option String
  region : Option String
  country : Option String
  deriving DecidableEq

def Location.moreAccurateThan (location : Location) : Option Location → Bool
  | none => true
  | some old =>
    if location.country ≠ old.country then true
    else if !present location.city && present old.city then false
    else if !present location.region && present old.region then false
    else true
where
  present (s : Option String) : Bool := (s.map Text.present).getD false

structure Document where
  name : Option String
  linkedinName : Option String
  facebookName : Option String
  biography : Option String
  keywords : Option String
  deriving DecidableEq

/-- The columns of a user that the index and the location job read. -/
structure Profile where
  id : ℕ
  name : Option String := none
  linkedinName : Option String := none
  facebookName : Option String := none
  biography : Option String := none
  keywords : Option String := none
  location : Option Location := none
  deriving DecidableEq

/-- The columns that a save writes. -/
structure Assignment where
  name : Option (Option String) := none
  linkedinName : Option (Option String) := none
  facebookName : Option (Option String) := none
  biography : Option (Option String) := none
  location : Option Location := none
  deriving DecidableEq

namespace Profile

def asIndexedJson (p : Profile) : Document := ⟨p.name, p.linkedinName, p.facebookName, p.biography, p.keywords⟩

def assign (a : Assignment) (p : Profile) : Profile :=
  { p with
    name := a.name.getD p.name
    linkedinName := a.linkedinName.getD p.linkedinName
    facebookName := a.facebookName.getD p.facebookName
    biography := a.biography.getD p.biography
    location := a.location.or p.location }

def populateKeywords (humanize : String → String) (location : Location) (p : Profile) : Profile :=
  { p with
    keywords := some (Text.squeeze (humanize
      (location.city.getD "" ++ " " ++ location.region.getD "" ++ " " ++ location.country.getD "" ++ " "))) }

end Profile

structure SearchStore where
  -- the committed rows
  users : Table Profile.id
  -- the rows with an update that is not committed
  locked : List ℕ := []
  -- the jobs to index a user
  queue : List ℕ := []
  index : ℕ → Option Document

inductive SearchProc where
  -- the three statements of a save, with what the location job does next
  | update (user : ℕ) (a : Assignment) (after : Option Location)
  | afterSave (user : ℕ) (a : Assignment) (after : Option Location)
  | commit (user : ℕ) (a : Assignment) (after : Option Location)
  -- the columns that the save of the job writes, if the user is valid
  | locate (user : ℕ) (found : Location) (saved : Option Assignment)
  | populateKeywords (user : ℕ) (location : Location)
  | worker
  | find (user : ℕ)
  | index (user : ℕ) (document : Document)
  | done
  deriving DecidableEq

namespace SearchProc

def profileSave (user : ℕ) (a : Assignment) : SearchProc := .update user a none

def next (humanize : String → String) (s : SearchStore) : SearchProc → SearchStore × SearchProc
  | update user a after =>
    -- an update waits for the transaction that has updated the row
    if user ∈ s.locked then (s, update user a after)
    else ({ s with locked := user :: s.locked }, afterSave user a after)
  | afterSave user a after => ({ s with queue := s.queue ++ [user] }, commit user a after)
  | commit user a after =>
    ({ s with users := s.users.update user (Profile.assign a), locked := s.locked.filter (· != user) },
      match after with
      | some location => populateKeywords user location
      | none => done)
  | locate user found saved =>
    match s.users.get? user with
    | none => (s, done)
    | some p =>
      if found.moreAccurateThan p.location then
        (s, match saved with
          | some a => update user { a with location := some found } (some found)
          | none => populateKeywords user found)
      else (s, done)
  | populateKeywords user location =>
    if user ∈ s.locked then (s, populateKeywords user location)
    else ({ s with users := s.users.update user (Profile.populateKeywords humanize location) }, done)
  | worker =>
    match s.queue with
    | [] => (s, worker)
    | user :: queue => ({ s with queue }, find user)
  | find user =>
    match s.users.get? user with
    | none => (s, worker)
    | some p => (s, index user p.asIndexedJson)
  | index user document => ({ s with index := Function.update s.index user (some document) }, worker)
  | done => (s, done)

/-- Neither in a transaction nor in a job. -/
def settled : SearchProc → Bool
  | update _ _ none => true
  | locate _ _ _ => true
  | worker => true
  | done => true
  | _ => false

def indexing : SearchProc → Bool
  | find _ => true
  | index _ _ => true
  | _ => false

def initial : SearchProc → Bool
  | update _ _ none => true
  | locate _ _ _ => true
  | worker => true
  | _ => false

end SearchProc

abbrev SearchRun (ι : Type) := Concurrent.State SearchStore ι SearchProc

def searchStep {ι : Type} [DecidableEq ι] (humanize : String → String) : SearchRun ι → ι → SearchRun ι :=
  Concurrent.step (SearchProc.next humanize)

def SearchStore.Converged (s : SearchStore) : Prop := ∀ p ∈ s.users.rows, s.index p.id = some p.asIndexedJson

structure SearchStarts {ι : Type} (r : SearchRun ι) : Prop where
  converged : r.shared.Converged
  queue : r.shared.queue = []
  locked : r.shared.locked = []
  initial : ∀ i, (r.procs i).initial = true

structure SearchSettled {ι : Type} (r : SearchRun ι) : Prop where
  queue : r.shared.queue = []
  settled : ∀ i, (r.procs i).settled = true

end Blnkk
