import Blnkk.Reputation
import Blnkk.RequestScore
import Blnkk.Recalculate
import Blnkk.PrivateMessage
import Blnkk.ViewRace
import Blnkk.RateCounted
import Blnkk.ActiveSession
import Blnkk.SessionRace
import Blnkk.OnePolicy
import Blnkk.UnreadFlags
import Blnkk.Reminders
import Blnkk.OwnConversations
import Blnkk.Presence
import Blnkk.PresenceCount
import Blnkk.TenantStatus
import Blnkk.PrivateSite
import Blnkk.Privileges
import Blnkk.Unsubscribe
import Blnkk.AccountFrame
import Blnkk.RequestCounts
import Blnkk.TagActions
import Blnkk.TagCounts
import Blnkk.StickyPosts
import Blnkk.LastAdmin
import Blnkk.IndexConvergence
import Blnkk.Newsletters
import Blnkk.FreshPosts
import Blnkk.Invitations
import Blnkk.OauthState
import Blnkk.Resending
import Blnkk.Notifications
import Blnkk.RatingTwice
import Blnkk.ReportAlerts
import Blnkk.RaisedNotices
import Blnkk.Feeds
import Blnkk.Lib.Paging
import Blnkk.Lib.Scan
import Blnkk.RequestPages
import Blnkk.SearchDirectives
import Blnkk.UserList
import Blnkk.DigestContents
import Blnkk.QuotedMessages
import Blnkk.CommentsUndone
import Blnkk.InvitedPieces
import Blnkk.Keywords
import Blnkk.LocaleNegotiation
import Blnkk.OwnPoints
import Blnkk.Places
import Blnkk.TagUpdates
import Blnkk.ReplyWindow
import Blnkk.FeedPages
import Blnkk.NotificationBadge
import Blnkk.SocketReconnect
import Blnkk.ReminderCoverage
import Blnkk.ConversationWindow
import Blnkk.UnsubscribeToken
import Blnkk.SystemMessages
import Blnkk.TypingIndicator
import Blnkk.FollowButton
import Blnkk.Dialogue
