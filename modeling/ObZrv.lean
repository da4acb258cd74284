import ObZrv.Lib.Machine
import ObZrv.Lib.LittleEndian
import ObZrv.Lib.Affine
import ObZrv.Lib.Loop
import ObZrv.Lib.Sse2
import ObZrv.Lib.Blocks
import ObZrv.Lib.DoWhile
import ObZrv.Lib.Cycle
import ObZrv.Lib.Delimited
import ObZrv.Lib.Iterator
import ObZrv.Lib.Cells
import ObZrv.Lib.Merge
import ObZrv.Lib.Nearest
import ObZrv.Lib.Reciprocal
import ObZrv.Lib.Rounding
import ObZrv.Lib.Recency
import ObZrv.Lib.Simulation
import ObZrv.Lib.Sweep
import ObZrv.Lib.Utf16
import ObZrv.Unifs.Protocol
import ObZrv.Unifs.RemoteConn
import ObZrv.Unifs.Pending
import ObZrv.Unifs.Replies
import ObZrv.Unifs.WriteQueue
import ObZrv.Unifs.FrameReader
import ObZrv.Unifs.Link
import ObZrv.Unifs.UniFile
import ObZrv.Unifs.RemoteFile
import ObZrv.Unifs.FileServer
import ObZrv.Unifs.ScriptedServer
import ObZrv.Unifs.FallibleFile
import ObZrv.Unifs.RemoteFs
import ObZrv.Unifs.Readdir
import ObZrv.Unifs.Served
import ObZrv.Unifs.Handles
import ObZrv.Unifs.RemoteDisk
import ObZrv.Unifs.DirIter
import ObZrv.Text.Path
import ObZrv.Text.Unipath
import ObZrv.Text.Config
import ObZrv.Text.RecentFiles
import ObZrv.Text.RemoteHistory
import ObZrv.Codec.Image
import ObZrv.Codec.ReadFile
import ObZrv.Codec.ZDataFile
import ObZrv.Codec.FailedSeek
import ObZrv.Codec.Filetype
import ObZrv.Codec.JumpAhead
import ObZrv.Codec.Webp
import ObZrv.Codec.GdiPlus
import ObZrv.Codec.Bitmap
import ObZrv.Bitmap.Pixel
import ObZrv.Bitmap.SixTap
import ObZrv.Bitmap.RowRing
import ObZrv.Bitmap.BoxFilter
import ObZrv.Bitmap.BoxAverage
import ObZrv.Bitmap.Bilinear
import ObZrv.Bitmap.VertBlend
import ObZrv.Bitmap.BlendColor
import ObZrv.Bitmap.Raster
import ObZrv.Codec.GdiFrames
import ObZrv.Codec.WebpFrames
import ObZrv.Bitmap.BoxBlock
import ObZrv.Bitmap.ScaleCrop
import ObZrv.Bitmap.TapReads
import ObZrv.Doc.Animate
import ObZrv.Doc.Reel
import ObZrv.Doc.CodecReels
import ObZrv.Doc.CatchUp
import ObZrv.Doc.Schedule
import ObZrv.Doc.OnTime
import ObZrv.Doc.Loops
import ObZrv.Doc.Passes
import ObZrv.Doc.Counters
import ObZrv.Doc.FileList
import ObZrv.Doc.Env
import ObZrv.Doc.Document
import ObZrv.Doc.SaveAs
import ObZrv.Doc.Failure
import ObZrv.Doc.Displayed
import ObZrv.Doc.DeleteSweep
import ObZrv.Doc.Deletion
import ObZrv.Doc.Panel
import ObZrv.Doc.ListUpdate
import ObZrv.Doc.Fallback
import ObZrv.Doc.ConnectDlg
import ObZrv.Doc.ConnectDialog
import ObZrv.Doc.ConnectAgain
import ObZrv.Doc.SlideShow
import ObZrv.Doc.SlideShowDialog
import ObZrv.Doc.SlideRounds
import ObZrv.Doc.SlideShown
import ObZrv.Doc.MoveSelection
import ObZrv.View.Window
import ObZrv.View.Paint
import ObZrv.View.ImageView
import ObZrv.View.ZoomLevel
import ObZrv.View.Settings
import ObZrv.View.Current
import ObZrv.View.Steps
import ObZrv.View.Levels
import ObZrv.View.Pan
import ObZrv.View.FitScale
import ObZrv.View.WindowFit
import ObZrv.View.ZoomDrag
import ObZrv.View.Int32
import ObZrv.View.Pace
import ObZrv.View.Overflow
import ObZrv.View.Placement
import ObZrv.View.MainView
import ObZrv.Doc.FullScreen
import ObZrv.Lib.Forest
import ObZrv.View.Menu
import ObZrv.View.RecentMenu
