import Koi.Proofs.Interleaving

/-!
# One worker

A call whose jobs are done one after another, none of them interrupted, does what its request does
on its own.

* `Job.finish`: the steps of a job in a row. They are a fetch (`Job.runOn_fetch_eq_finish`) or the
  warming of one mask (`Job.runOn_warmKey_eq_finish`).
* `Workers.run_serial`: a call alone leaves the cache that its request leaves, and returns the same.
-/

namespace Koi

namespace Job

/-! ## One job -/

/-- The three steps of a job in a row. -/
def finish (store : Store) (key : MaskKey) (cache : Cache) : Job × Cache :=
  let (job, cache) := (Job.mk key .waiting).act store cache
  let (job, cache) := job.act store cache
  job.act store cache

variable {store : Store} {key : MaskKey} {cache : Cache}

theorem finish_of_some {image : Image} (h : cache.images[key]? = some image) :
    finish store key cache = (⟨key, .found image⟩, cache) := by
  rw [finish, act_waiting, h]
  rfl

theorem finish_of_scaled {image : Image} (h : cache.images[key]? = none)
    (hs : store.scaled? key = some image) :
    finish store key cache = (⟨key, .stored image⟩, cache.add key image) := by
  rw [finish, act_waiting, h]
  simp only
  rw [act_missed, hs]
  rfl

theorem finish_of_unknown (h : cache.images[key]? = none) (hs : store.scaled? key = none) :
    finish store key cache = (⟨key, .unknown⟩, cache) := by
  rw [finish, act_waiting, h]
  simp only
  rw [act_missed, hs]
  rfl

/-- A fetch is a job without interruption. -/
theorem runOn_fetch_eq_finish (store : Store) (name : LayerName) {size : UInt32}
    (valid : ValidSize size) (cache : Cache) :
    (Cache.fetch store name size).runOn cache =
      (match (finish store ⟨size, name⟩ cache).1.image? with
        | some image => .ok image
        | none => .error (.unknownAsset name.render),
      (finish store ⟨size, name⟩ cache).2) := by
  unfold Cache.fetch
  rw [checkSize_of_valid valid, CacheM.runOn_bind_ok (CacheM.runOn_liftM _ _),
    CacheM.runOn_bind_ok (CacheM.runOn_get _)]
  cases hc : cache.images[MaskKey.mk size name]? with
  | some image =>
    rw [finish_of_some hc]
    rfl
  | none =>
    rw [Store.get]
    cases hm : store.get? name with
    | some mask =>
      rw [finish_of_scaled hc (by rw [Store.scaled?, hm, Option.map_some])]
      rfl
    | none =>
      rw [finish_of_unknown hc (by rw [Store.scaled?, hm, Option.map_none])]
      rfl

/-- Warming one mask is a job without interruption, and counts whether the job has stored one. -/
theorem runOn_warmKey_eq_finish (known : store.contains key.name = true) (scaled : Nat)
    (cache : Cache) : (Cache.warmKey store key scaled).runOn cache =
      (.ok (scaled + if (finish store key cache).1.isStored then 1 else 0),
        (finish store key cache).2) := by
  unfold Cache.warmKey
  rw [CacheM.runOn_bind_ok (CacheM.runOn_get _), Cache.contains_eq_isSome]
  cases hc : cache.images[key]? with
  | some image =>
    rw [finish_of_some hc]
    rfl
  | none =>
    obtain ⟨mask, hg, hm⟩ := Store.get_of_contains known
    rw [finish_of_scaled hc (by rw [Store.scaled?, hm, Option.map_some]), hg]
    rfl

/-- A job without interruption fills in its mask. -/
theorem finish_eq_fill (known : store.contains key.name = true) (cache : Cache) :
    ∃ job, finish store key cache = (job, cache.fill store key) ∧ job.image?.isSome = true ∧
      (if job.isStored then 1 else 0) = (cache.absent [key]).length := by
  cases hc : cache.images[key]? with
  | some image =>
    have hk : cache.contains key = true := by simp [Cache.contains_eq_isSome, hc]
    rw [finish_of_some hc, Cache.fill_of_contains hk]
    exact ⟨_, rfl, rfl, by simp [Cache.absent, hk, isStored]⟩
  | none =>
    have hk : cache.contains key = false := by simp [Cache.contains_eq_isSome, hc]
    obtain ⟨image, hs⟩ := Option.isSome_iff_exists.1 ((store.isSome_scaled? key).trans known)
    rw [finish_of_scaled hc hs, Cache.fill_of_some hk hs]
    exact ⟨_, rfl, rfl, by simp [Cache.absent, hk, isStored]⟩

end Job

/-- A request that can be served fills in the masks of its jobs. -/
theorem Request.Served.leave_eq {store : Store} {cache : Cache} {request : Request}
    (served : request.Served store) (hc : Cache.Coherent store cache) :
    request.leave store cache = cache.fillAll store (request.jobKeys store) := by
  rw [Request.leave_eq_fillAll hc]
  cases request with
  | fetch name size => rfl
  | warm sizes => rfl
  | render attributes background size =>
    have hall : attributes.layerNames.takeWhile store.contains = attributes.layerNames :=
      List.takeWhile_eq_self_iff.2 served.2
    rw [Request.keys, renderKeys, hall]
    rfl

namespace Workers

variable {store : Store}

/-! ## One call -/

/-- The turns of a call that does its jobs one after another, from some place on. -/
def serial (call : Nat) (first count : Nat) : List Turn :=
  (List.range' first count).flatMap fun job => List.replicate 3 ⟨call, job⟩

theorem step_of_front (store : Store) (cache : Cache) (before after : List Call)
    (request : Request) {front : List Job}
    (h : front.all (fun job => job.image?.isSome) = true) (job : Job) (back : List Job) :
    step store ⟨cache, before ++ ⟨request, front ++ job :: back⟩ :: after⟩
        ⟨before.length, front.length⟩ =
      ⟨(job.act store cache).2,
        before ++ ⟨request, front ++ (job.act store cache).1 :: back⟩ :: after⟩ := by
  have hc : (before ++ Call.mk request (front ++ job :: back) :: after)[before.length]? =
      some ⟨request, front ++ job :: back⟩ := by simp
  rw [step]
  simp only [hc, Call.job?_append_cons request h job back]
  simp

theorem run_replicate_of_front (store : Store) (cache : Cache) (before after : List Call)
    (request : Request) {front : List Job}
    (h : front.all (fun job => job.image?.isSome) = true) (key : MaskKey) (back : List Job) :
    run store ⟨cache, before ++ ⟨request, front ++ ⟨key, .waiting⟩ :: back⟩ :: after⟩
        (List.replicate 3 ⟨before.length, front.length⟩) =
      ⟨(Job.finish store key cache).2,
        before ++ ⟨request, front ++ (Job.finish store key cache).1 :: back⟩ :: after⟩ := by
  simp only [run, List.replicate, List.foldl_cons, List.foldl_nil, step_of_front _ _ _ _ _ h]
  rfl

theorem run_append (store : Store) (workers : Workers) (schedule more : List Turn) :
    workers.run store (schedule ++ more) = (workers.run store schedule).run store more :=
  List.foldl_append

/-- Jobs that are done one after another fill in their masks, and have stored those that were
    absent. -/
theorem run_serial_jobs {keys : List MaskKey}
    (known : ∀ key ∈ keys, store.contains key.name = true) (cache : Cache)
    (before after : List Call) (request : Request) {front : List Job}
    (h : front.all (fun job => job.image?.isSome) = true) :
    ∃ jobs, run store
        ⟨cache, before ++ ⟨request, front ++ keys.map fun key => ⟨key, .waiting⟩⟩ :: after⟩
        (serial before.length front.length keys.length) =
      ⟨cache.fillAll store keys, before ++ ⟨request, front ++ jobs⟩ :: after⟩ ∧
      jobs.all (fun job => job.image?.isSome) = true ∧
      (keys.Nodup → jobs.countP Job.isStored = (cache.absent keys).length) := by
  induction keys generalizing cache front with
  | nil => exact ⟨[], rfl, rfl, fun _ => rfl⟩
  | cons key rest ih =>
    obtain ⟨job, hf, hi, hcount⟩ := Job.finish_eq_fill (known key List.mem_cons_self) cache
    have hfront : (front ++ [job]).all (fun job => job.image?.isSome) = true := by simp [h, hi]
    obtain ⟨jobs, hrun, hall, hstored⟩ := ih
      (fun other ho => known other (List.mem_cons_of_mem key ho)) (cache.fill store key) hfront
    refine ⟨job :: jobs, ?_, by simp [hi, hall], ?_⟩
    · have hs : serial before.length front.length (key :: rest).length =
          List.replicate 3 ⟨before.length, front.length⟩ ++
            serial before.length (front.length + 1) rest.length := by
        simp [serial, List.range'_succ]
      have hfirst := run_replicate_of_front store cache before after request h key
        (rest.map fun key => ⟨key, .waiting⟩)
      rw [hf] at hfirst
      rw [hs, run_append, List.map_cons, hfirst, Cache.fillAll_cons]
      simpa using hrun
    · intro nodup
      obtain ⟨hk, hr⟩ := List.nodup_cons.1 nodup
      have hstored := hstored hr
      rw [Cache.absent_fill hk] at hstored
      rw [List.countP_cons, hstored, hcount, Cache.length_absent_cons cache key rest,
        Nat.add_comm]

/-- A call whose jobs are done one after another leaves the cache that its request leaves, and
    returns the same. -/
theorem run_serial {cache : Cache} {before after : List Call} {request : Request}
    (hc : Cache.Coherent store cache)
    (h : Sound store ⟨cache, before ++ Call.start store request :: after⟩)
    (served : request.Served store) :
    ∃ jobs reply, run store ⟨cache, before ++ Call.start store request :: after⟩
        (serial before.length 0 (request.jobKeys store).length) =
      ⟨request.leave store cache, before ++ ⟨request, jobs⟩ :: after⟩ ∧
      (Call.mk request jobs).reply? = some reply ∧
      ((request.serve store).runOn cache).1 = .ok reply := by
  have hfront : ([] : List Job).all (fun job => job.image?.isSome) = true := rfl
  obtain ⟨jobs, hrun, hover, hstored⟩ :=
    run_serial_jobs (fun key hk => served.contains hk) cache before after request hfront
  simp only [List.nil_append, List.length_nil] at hrun
  have hsound := h.run (serial before.length 0 (request.jobKeys store).length)
  have hshape := shape_run store ⟨cache, before ++ Call.start store request :: after⟩
    (serial before.length 0 (request.jobKeys store).length)
  rw [Call.start, hrun] at hsound hshape
  have hk : jobs.map Job.key = request.jobKeys store := by
    simpa [shape, Function.comp_def] using hshape
  have hjobs : ∀ job ∈ jobs, job.Sound store (cache.fillAll store (request.jobKeys store)) :=
    hsound.jobs ⟨request, jobs⟩ (by simp)
  have hover : (Call.mk request jobs).isOver = true := hover
  obtain ⟨reply, hreply⟩ : ∃ reply, (Call.mk request jobs).reply? = some reply :=
    Call.exists_reply hsound.faithful hjobs hk served hover
  refine ⟨jobs, reply, ?_, hreply, ?_⟩
  · rw [served.leave_eq hc, Call.start, hrun]
  · cases request with
    | fetch name size =>
      obtain ⟨mask, hm, rfl⟩ := Call.eq_of_fetch hsound.faithful hjobs hk hreply
      have hs : store.scaled? ⟨size, name⟩ = some (mask.resize size.toNat) := by
        rw [Store.scaled?, hm, Option.map_some]
      rw [Request.serve, CacheM.runOn_map, hc.runOn_fetch, Store.scaled_of_some served.1 hs]
      rfl
    | warm sizes =>
      have valid : ValidSizes sizes := served
      rw [Call.reply?, if_pos hover] at hreply
      simp only [if_pos valid] at hreply
      have hnodup : (Request.jobKeys store (.warm sizes)).Nodup := by
        rw [Request.jobKeys, if_pos valid]
        exact Cache.nodup_warmKeys store (Cache.nodup_eraseDups sizes)
      rw [← Option.some.inj hreply, hstored hnodup, Request.jobKeys, if_pos valid, Request.serve,
        CacheM.runOn_map, Cache.runOn_warm, if_pos valid]
      rfl
    | render a background size =>
      obtain ⟨image, hi, rfl⟩ := Call.eq_of_render hsound.faithful hjobs hk hreply
      rw [Request.serve, CacheM.runOn_map, hc.runOn_render, hi]
      rfl

end Workers

end Koi
