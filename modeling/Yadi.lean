import Yadi.ErrorDetection
import Yadi.Negotiation
import Yadi.Addressing
import Yadi.Session
import Yadi.SenderLimit
import Yadi.Limits
import Yadi.ParameterList
import Yadi.ReplyMatching
import Yadi.FrameFields
import Yadi.DataType
import Yadi.Packing
import Yadi.Wrapper
import Yadi.Apdu
import Yadi.LogicalName
import Yadi.Aarq
import Yadi.Association
import Yadi.KeySecrecy
import Yadi.Proposal
import Yadi.Echo
import Yadi.LateReplies
import Yadi.DemoRuns
import Yadi.Unfinished
