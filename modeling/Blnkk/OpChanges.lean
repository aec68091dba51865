import Blnkk.Changes
import Mathlib.Data.List.Dedup

namespace Blnkk

open Relational Relation

theorem autoFollow_changes (me : ℕ) (inviters : List ℕ) (db db' : Db)
    (h : autoFollow me inviters db = some db') : Changes db db' := by
  induction inviters generalizing db with
  | nil => cases h; exact .refl
  | cons inviter rest ih =>
    simp only [autoFollow] at h
    split_ifs at h
    exact (user_rate_changes db inviter me (.int 1)).trans (ih _ h)

theorem signUp_changes (P : Platform) (db : Db) (email name : String) : Changes db (signUp P db email name) := by
  unfold signUp
  cases h : createUser P db email name with
  | error failure => exact .refl
  | ok result =>
    obtain ⟨-, -, -, -, hf⟩ := createUser_ok h
    exact .head (.newUser _ _ (fun n => rfl)) (autoFollow_changes _ _ _ _ hf)

theorem updateAttributes_changes (P : Platform) (db : Db) (u : User) (params : ParamsHash) :
    Changes db (u.updateAttributes P db params).2 := by
  rcases u.updateAttributes_cases P db params with h | ⟨email, name, h⟩
  · rw [h]
  · rw [h]
    exact .single (.user u.id _ _ (fun _ => rfl))

theorem manageUser_changes (P : Platform) (db : Db) (me : ℕ) (action : UserAction) :
    Changes db (action.perform P db me) := by
  rcases action.perform_cases P db me with h | ⟨user, params, -, h, -⟩
  · rw [h]
  · rw [h]
    exact updateAttributes_changes P db user params

theorem recountRequests_change (db : Db) (user : ℕ) : Change db (db.recountRequests user) :=
  .user user _ _ (fun _ => rfl)

theorem setWorkflowState_change (db : Db) (id : ℕ) (state : WorkflowState) :
    Change db (db.setWorkflowState id state) :=
  .request id _ _ (fun _ => rfl)

theorem createRequest_changes (P : Platform) (db : Db) (me : ℕ) (subject content : String)
    (reward : Option String) : Changes db (RequestsController.create P db me subject content reward).2 := by
  rcases RequestsController.create_cases P db me subject content reward with h | ⟨hm, h⟩
  · rw [h]
  · rw [h]
    exact .head (.newRequest me _ _ _ hm) (.single (recountRequests_change _ me))

theorem destroyRequest_changes (db : Db) (me id : ℕ) : Changes db (RequestsController.destroy db me id).2 := by
  rcases RequestsController.destroy_cases db me id with h | h
  · rw [h]
  · rw [h]
    exact .head (setWorkflowState_change db id .disabled) (.single (recountRequests_change _ me))

theorem updateRequest_changes (db : Db) (id : ℕ) (event : AdminRequestsController.Event) :
    Changes db (AdminRequestsController.update db id event) := by
  rcases AdminRequestsController.update_cases db id event with h | ⟨request, -, -, h⟩
  · rw [h]
  · rw [h]
    exact .head (setWorkflowState_change db id event.target) (.single (recountRequests_change _ _))

theorem createComment_changes (db : Db) (me request : ℕ) (content : String) :
    Changes db (CommentsController.create db me request content).2.1 := by
  rcases CommentsController.create_cases db me request content with ⟨r, hm, hr, h⟩ | ⟨-, h⟩
  · have hr' : db.requests.get? r.id = some r := Table.get?_row hr
    rw [h]
    exact .head (.newComment me request content hm) (.single (.joinRequest r me hr' hm))
  · rw [h]

theorem destroyComment_changes (db : Db) (me id : ℕ) : Changes db (CommentsController.destroy db me id).2 := by
  have hd : Change db { db with comments := db.comments.update id (fun c => { c with enabled := false }) } :=
    .comment id _ _ (fun _ => rfl)
  rcases CommentsController.destroy_cases db me id with h | h | ⟨r, hr, h⟩
  · rw [h]
  · rw [h]
    exact .single hd
  · rw [h]
    exact .head hd (.single (.rescore r hr))

theorem view_requests_get? (me : ℕ) (db : Db) (r : Request) (id : ℕ) (hid : id ≠ r.id) :
    (RequestsController.view me db r).requests.get? id = db.requests.get? id := by
  rw [RequestsController.view, Request.get?_updateScore, if_neg hid]
  rfl

theorem views_changes (me : ℕ) (rows : List Request) (hn : (rows.map Request.id).Nodup) (db : Db)
    (hm : db.users.has me = true) (hrows : ∀ r ∈ rows, db.requests.get? r.id = some r) :
    Changes db (rows.foldl (RequestsController.view me) db) := by
  induction rows generalizing db with
  | nil => exact .refl
  | cons r rows ih =>
    obtain ⟨hr, hn⟩ := List.nodup_cons.mp hn
    refine .head (.view r me (hrows r (by simp)) hm) (ih hn _ hm ?_)
    intro r' hr'
    have hne : r'.id ≠ r.id := fun he => hr (List.mem_map.mpr ⟨r', hr', he⟩)
    rw [view_requests_get? me db r r'.id hne]
    exact hrows r' (List.mem_cons_of_mem _ hr')

theorem loaded_nodup (db : Db) (page : List ℕ) (hn : page.Nodup) :
    ((page.filterMap db.requests.get?).map Request.id).Nodup := by
  induction page with
  | nil => simp
  | cons id page ih =>
    obtain ⟨hid, hn⟩ := List.nodup_cons.mp hn
    cases h : db.requests.get? id with
    | none => simpa [List.filterMap_cons, h] using ih hn
    | some r =>
      simp only [List.filterMap_cons, h, List.map_cons, List.nodup_cons]
      refine ⟨?_, ih hn⟩
      rintro hm
      obtain ⟨r', hr', he⟩ := List.mem_map.mp hm
      obtain ⟨id', hid', hg⟩ := List.mem_filterMap.mp hr'
      have hk : id' = id := by rw [← Table.get?_key hg, ← Table.get?_key h, he]
      exact hid (hk ▸ hid')

theorem index_changes (db : Db) (me : ℕ) (page : List ℕ) : Changes db (RequestsController.index db me page) := by
  unfold RequestsController.index
  split_ifs with hm
  · apply views_changes me _ _ db hm
    · intro r hr
      obtain ⟨id, -, hg⟩ := List.mem_filterMap.mp (List.mem_filter.mp hr).1
      exact Table.get?_row hg
    · exact (List.filter_sublist.map _).nodup (loaded_nodup db _ (List.nodup_dedup page))
  · exact .refl

theorem show_changes (db : Db) (me id : ℕ) : Changes db (RequestsController.show db me id).2 := by
  unfold RequestsController.show
  by_cases hp : db.users.has me || db.settings.private != some "1"
  · rw [if_pos hp]
    cases hr : db.requests.get? id with
    | none => exact .refl
    | some r =>
      have hr' : db.requests.get? r.id = some r := Table.get?_row hr
      simp only
      split_ifs with ha hm
      · exact .single (.view r me hr' hm)
      · exact .refl
      · exact .refl
  · rw [if_neg hp]

end Blnkk
