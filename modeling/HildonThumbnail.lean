import HildonThumbnail.Lib.Run
import HildonThumbnail.Manager.Monitor
import HildonThumbnail.Manager.Mutex
import HildonThumbnail.Manager.Locking
import HildonThumbnail.Albumart.PathAgreement
import HildonThumbnail.Albumart.Finished
import HildonThumbnail.Albumart.Confined
import HildonThumbnail.Albumart.Providers
import HildonThumbnail.Daemon.PluginErrors
import HildonThumbnail.Daemon.Methods
import HildonThumbnail.OutPlugin.PngHistory
import HildonThumbnail.Gdkpixbuf.Ready
import HildonThumbnail.OutPlugin.JpegCleanup
import HildonThumbnail.Thumbnailer.Registrations
import HildonThumbnail.Thumbnailer.Supported
import HildonThumbnail.Thumbnailer.TaskSignals
import HildonThumbnail.Thumbs.Join
import HildonThumbnail.Thumbs.Unqueue
import HildonThumbnail.Thumbs.Delivered
import HildonThumbnail.Thumbs.ThumberRegister
import HildonThumbnail.Thumbnailer.Deleted
import HildonThumbnail.Thumbnailer.TrackerWait
import HildonThumbnail.Video.CreateThumbnails
import HildonThumbnail.Bus.Delivery
import HildonThumbnail.Video.ThumberStates
import HildonThumbnail.Albumart.CleanCache
import HildonThumbnail.Image.CropResize
import HildonThumbnail.Image.CroppedSize
import HildonThumbnail.Epeg.Orientation
import HildonThumbnail.Thumbs.Flavours
import HildonThumbnail.Albumart.StripNormal
import HildonThumbnail.Exec.Replaced
import HildonThumbnail.Gdkpixbuf.AnimatedGif
import HildonThumbnail.Gdkpixbuf.GifReads
import HildonThumbnail.Daemon.MemoryLimit
import HildonThumbnail.Image.Orientate
import HildonThumbnail.Video.ValidThumb
import HildonThumbnail.Thumbs.LoadCustom
import HildonThumbnail.Thumbnailer.CachedGroup
import HildonThumbnail.Thumbnailer.RemoteCopies
import HildonThumbnail.Exec.Ownership
import HildonThumbnail.Exec.ReloadConfig
import HildonThumbnail.Lib.SortedQueue
import HildonThumbnail.Daemon.WorkPool
import HildonThumbnail.OutPlugin.Agreement
import HildonThumbnail.Image.AtScale
import HildonThumbnail.Gdkpixbuf.Loader
import HildonThumbnail.Albumart.StripBlocks
import HildonThumbnail.Albumart.QueuedUri
import HildonThumbnail.OutPlugin.PngCleanup
import HildonThumbnail.OutPlugin.JpegDatabase
import HildonThumbnail.OutPlugin.JpegOrig
import HildonThumbnail.Lib.Failures
import HildonThumbnail.Epeg.Create
import HildonThumbnail.Exec.Create
import HildonThumbnail.Daemon.CreateContract
import HildonThumbnail.Image.WantedSize
import HildonThumbnail.Gdkpixbuf.Supported
import HildonThumbnail.Video.StreamContinue
import HildonThumbnail.Albumart.Client
import HildonThumbnail.Thumbnailer.Answers
import HildonThumbnail.Thumbnailer.Drain
import HildonThumbnail.Bus.Progress
import HildonThumbnail.Daemon.OutputPlugins
import HildonThumbnail.Lib.Refs
import HildonThumbnail.Video.PipeRun
import HildonThumbnail.Lib.Transfer
import HildonThumbnail.Thumbnailer.Store
import HildonThumbnail.Lib.Bytes
import HildonThumbnail.Epeg.ExifBlock
import HildonThumbnail.Thumbs.CreateThumb
import HildonThumbnail.OutPlugin.Provenance
import HildonThumbnail.Albumart.Conversations
import HildonThumbnail.Thumbnailer.Handshake
import HildonThumbnail.Bus.VideoService
import HildonThumbnail.Albumart.Replies
import HildonThumbnail.Albumart.Heard
import HildonThumbnail.Bus.AlbumartSystem
import HildonThumbnail.Daemon.PluginLife
import HildonThumbnail.Bus.AlbumartProgress
